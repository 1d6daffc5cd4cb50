import TileKiln.Proofs.AssemblyStages
import TileKiln.Proofs.Parts
import TileKiln.Proofs.TemplateChain

namespace TileKiln.Assembly

open Work Hosted

variable {σ τ : Type} {around : Surroundings} {α β γ : Type}

section Rules

variable {work : (σ : Type) → Host σ → Work σ α} {told : List Call → α → Prop}

theorem recorded_done (a : α) :
    Recorded (fun σ _ => (done a : Work σ α).toBake) fun calls b => calls = [] ∧ b = a :=
  recorded_pure a

theorem recorded_step {a : α} {next : Hosted α} (h : Recorded next told) :
    Recorded (fun σ host => (step a (next σ host)).toBake) told := by
  simp only [toBake_step]
  exact h

theorem recorded_within {place : BakeError → BakeError}
    (h : Recorded (fun σ host => (work σ host).toBake) told) :
    Recorded (fun σ host => (within place (work σ host)).toBake) told := by
  intro σ host s a s' hrun
  obtain ⟨calls, hreplays, htold, hsame⟩ := h host (toBake_within_eq_ok_iff.1 hrun)
  refine ⟨calls, hreplays, htold, ?_⟩
  intro τ other t t' hother
  exact toBake_within_eq_ok_iff.2 (hsame other hother)

theorem recorded_part {whole : α → β} {toldWhole : List Call → β → Prop}
    (h : Recorded (fun σ host => (work σ host).toBake) fun calls a => toldWhole calls (whole a)) :
    Recorded (fun σ host => (part whole (work σ host)).toBake) toldWhole := by
  simp only [toBake_part]
  refine h.bind fun a => (recorded_pure (whole a)).mono ?_
  rintro calls b ⟨rfl, rfl⟩ front hfront
  rwa [List.append_nil]

theorem recorded_andThen {next : α → (σ : Type) → Host σ → Work σ α}
    {toldNext : List Call → α → Prop} (h : Recorded (fun σ host => (work σ host).toBake) told)
    (hnext : ∀ a, Recorded (fun σ host => (next a σ host).toBake)
      fun back b => ∀ front, told front a → toldNext (front ++ back) b) :
    Recorded (fun σ host => (andThen (work σ host) fun a => next a σ host).toBake) toldNext := by
  simp only [toBake_andThen]
  exact h.bind hnext

theorem recorded_cons {first : (σ : Type) → Host σ → Work σ α} {others : List α}
    {next : (σ : Type) → Host σ → Work σ (List α)} {toldNext toldAll : List Call → List α → Prop}
    (hfirst : Recorded (fun σ host => (first σ host).toBake) told)
    (hnext : Recorded (fun σ host => (next σ host).toBake) toldNext)
    (hall : ∀ a as front back, told front a → toldNext back as → toldAll (front ++ back) (a :: as)) :
    Recorded (fun σ host => (cons (first σ host) others (next σ host)).toBake) toldAll := by
  simp only [toBake_cons]
  refine hfirst.bind fun a => hnext.bind fun as => (recorded_pure (a :: as)).mono ?_
  rintro calls b ⟨rfl, rfl⟩ back hback front hfront
  rw [List.append_nil]
  exact hall a as front back hfront hback

end Rules

inductive Each (told : α → List Call → β → Prop) : List α → List Call → List β → Prop
  | nil : Each told [] [] []
  | cons (a as front back b bs) (hfirst : told a front b) (hothers : Each told as back bs) :
      Each told (a :: as) (front ++ back) (b :: bs)

theorem each_recorded {work : (σ : Type) → Host σ → α → Work σ α} {told : α → List Call → α → Prop}
    (h : ∀ a, Recorded (fun σ host => (work σ host a).toBake) (told a)) (as : List α) :
    Recorded (fun σ host => (each (work σ host) as).toBake) (Each told as) := by
  induction as with
  | nil =>
      refine (recorded_done []).mono ?_
      rintro _ _ ⟨rfl, rfl⟩
      exact .nil
  | cons a as ih =>
      refine recorded_cons (h a) ih ?_
      intro b bs front back hfirst hothers
      exact .cons a as front back b bs hfirst hothers

theorem Each.forall₂ {told : α → List Call → β → Prop} {R : α → β → Prop} {as : List α}
    {calls : List Call} {bs : List β} (h : Each told as calls bs)
    (hR : ∀ a calls b, told a calls b → R a b) : List.Forall₂ R as bs := by
  induction h with
  | nil => exact .nil
  | cons a as front back b bs hfirst _ ih => exact .cons (hR a front b hfirst) ih

theorem Each.exists_of_mem {told : α → List Call → β → Prop} {as : List α} {calls : List Call}
    {bs : List β} (h : Each told as calls bs) {b : β} (hb : b ∈ bs) :
    ∃ a ∈ as, ∃ own ⊆ calls, told a own b := by
  induction h with
  | nil => cases hb
  | cons a as front back b bs hfirst _ ih =>
      rcases List.mem_cons.1 hb with rfl | hb
      · exact ⟨a, List.mem_cons_self, front, List.subset_append_left front back, hfirst⟩
      · obtain ⟨a', ha', own, hown, htold⟩ := ih hb
        exact ⟨a', List.mem_cons_of_mem a ha', own, fun _ hcall =>
          List.mem_append_right front (hown hcall), htold⟩

theorem Each.mono {told told' : α → List Call → β → Prop} {as : List α} {calls : List Call}
    {bs : List β} (h : Each told as calls bs) (himp : ∀ a calls b, told a calls b → told' a calls b) :
    Each told' as calls bs := by
  induction h with
  | nil => exact .nil
  | cons a as front back b bs hfirst _ ih => exact .cons a as front back b bs (himp a front b hfirst) ih

theorem Each.of_map {f : γ → α} {told : α → List Call → β → Prop} {cs : List γ}
    {calls : List Call} {bs : List β} (h : Each told (cs.map f) calls bs) :
    Each (fun c => told (f c)) cs calls bs := by
  induction cs generalizing calls bs with
  | nil =>
      cases h
      exact .nil
  | cons c cs ih =>
      cases h with
      | cons _ _ front back b bs hfirst hothers =>
          exact .cons c cs front back b bs hfirst (ih hothers)

theorem Each.exists_map {f : γ → β} {told : α → List Call → γ → Prop} {as : List α}
    {calls : List Call} {bs : List β}
    (h : Each (fun a calls b => ∃ c, b = f c ∧ told a calls c) as calls bs) :
    ∃ cs, bs = cs.map f ∧ Each told as calls cs := by
  induction h with
  | nil => exact ⟨[], rfl, .nil⟩
  | cons a as front back b bs hfirst _ ih =>
      obtain ⟨c, rfl, hc⟩ := hfirst
      obtain ⟨cs, rfl, hcs⟩ := ih
      exact ⟨c :: cs, rfl, .cons a as front back c cs hc hcs⟩

variable {firstGids : List (String × UInt32)}

theorem Each.account {parts : α → List Part} {parts' : β → List Part}
    {told : α → List Call → β → Prop} {as : List α} {calls : List Call} {bs : List β}
    (h : Each told as calls bs)
    (htold : ∀ a calls b, told a calls b → Account firstGids (parts a) calls (parts' b)) :
    Account firstGids (as.flatMap parts) calls (bs.flatMap parts') := by
  induction h with
  | nil => exact .nil
  | cons a as front back b bs hfirst _ ih =>
      rw [List.flatMap_cons, List.flatMap_cons]
      exact (htold a front b hfirst).append ih

/-- A template that stands for no tile is served as it is. -/
theorem placed_of_no_tile {firstGids : List (String × UInt32)} {reference : String}
    {template : Template} (h : template.tileset = none ∨ template.object.gid = none) :
    template.calls reference = [.template reference template] ∧
      template.placed firstGids reference = .ok template.object := by
  rw [Template.calls, Template.placed]
  rcases h with h | h
  · simp [h]
  · cases htileset : template.tileset <;> simp [h]

theorem fetchTemplate_recorded (around : Surroundings) (reference : String) :
    Recorded (fun _ host => fetchTemplate host around reference) fun calls placed =>
      ∃ template : Template, calls = template.calls reference ∧
        template.placed around.firstGids reference = .ok placed := by
  refine (recorded_loadTemplate reference).bind fun template => ?_
  have hplain (h : template.tileset = none ∨ template.object.gid = none) :
      Recorded (fun _ _ => pure template.object) fun back placed =>
        ∀ front, front = [Call.template reference template] → ∃ template : Template,
          front ++ back = template.calls reference ∧
            template.placed around.firstGids reference = .ok placed := by
    refine (recorded_pure template.object).mono ?_
    rintro _ _ ⟨rfl, rfl⟩ _ rfl
    obtain ⟨hcalls, hplaced⟩ := placed_of_no_tile h
    exact ⟨template, hcalls.symm, hplaced⟩
  cases htileset : template.tileset with
  | none => exact hplain (.inl htileset)
  | some tileset =>
      cases hgid : template.object.gid with
      | none => exact hplain (.inr hgid)
      | some gid =>
          refine (recorded_addDependency tileset.source).bind fun _ => ?_
          cases hremap : Gid.remap around.firstGids tileset gid with
          | error e => exact recorded_throw _
          | ok moved =>
              refine (recorded_pure { template.object with gid := some moved }).mono ?_
              rintro _ _ ⟨rfl, rfl⟩ _ rfl _ rfl
              refine ⟨template, ?_, ?_⟩
              · simp [Template.calls, htileset, hgid]
              · simp [Template.placed, htileset, hgid, hremap]

theorem chain_recorded {σ : Type} {host : Host σ} {seen : List String} {object : Object}
    {progress : Progress Object} {s s' : σ}
    (h : Object.Resolution (fetchTemplate host around) seen object s progress s')
    (hdone : progress.failure = none) :
    ∃ chain : Object.TemplateChain, host.Replays chain.calls s s' ∧
      object.Inherits around.firstGids chain progress.value ∧
      ∀ ⦃τ : Type⦄ (other : Host τ) ⦃t t' : τ⦄, other.Replays chain.calls t t' →
        Object.Resolution (fetchTemplate other around) seen object t progress t' := by
  induction h with
  | plain seen object s htemplate =>
      refine ⟨[], .nil s, .plain object htemplate, ?_⟩
      intro τ other t t' hother
      cases hother
      exact .plain seen object t htemplate
  | inherits seen object s reference placed s₁ base s₂ htemplate hnew hfetch hrest ih =>
      obtain ⟨calls, hcalls, ⟨template, rfl, hplaced⟩, hsame⟩ :=
        fetchTemplate_recorded around reference host hfetch
      obtain ⟨chain, hchain, hinherits, hsameRest⟩ := ih rfl
      refine ⟨(reference, template) :: chain, hcalls.append hchain,
        .template object reference template placed chain base htemplate hplaced hinherits, ?_⟩
      intro τ other t t' hother
      obtain ⟨t₁, hother, hotherRest⟩ := Host.Replays.split hother
      exact .inherits seen object t reference placed t₁ base t' htemplate hnew (hsame other hother)
        (hsameRest other hotherRest)
  | cycle | unfetched | unresolved => cases hdone

theorem object_recorded (around : Surroundings) (o : Object) :
    Recorded (fun _ host => (object host around o).toBake) fun calls resolved =>
      ∃ chain : Object.TemplateChain, calls = chain.calls ∧
        o.Inherits around.firstGids chain resolved := by
  refine recorded_within ?_
  intro σ host s resolved s' hrun
  rw [toBake_eq_ok_iff] at hrun
  obtain ⟨chain, hreplays, hinherits, hsame⟩ :=
    chain_recorded (Object.resolution_of_resolveInPlace hrun) rfl
  refine ⟨chain.calls, hreplays, ⟨chain, rfl, hinherits⟩, ?_⟩
  intro τ other t t' hother
  rw [toBake_eq_ok_iff, Object.resolveInPlace]
  exact (hsame other hother).resolveFrom?_eq ▸ rfl

theorem image_recorded (firstGids : List (String × UInt32)) (image : Option Image) :
    Recorded (fun _ host => (Assembly.image host image).toBake) fun calls after =>
      Account firstGids (Part.ofImage image) calls (Part.ofImage after) := by
  cases image with
  | none =>
      refine (recorded_done none).mono ?_
      rintro _ _ ⟨rfl, rfl⟩
      exact .nil
  | some image =>
      refine recorded_part (recorded_step ((recorded_resolveImage image.source).bind fun source =>
        (recorded_pure { image with source }).mono ?_))
      rintro _ _ ⟨rfl, rfl⟩ _ rfl
      exact .image image.source source [] [] [] .nil

theorem objects_recorded (around : Surroundings) (items : List Object) :
    Recorded (fun _ host => (objects host around items).toBake) fun calls items' =>
      Account around.firstGids (items.map .object) calls (items'.map .object) := by
  refine (each_recorded (object_recorded around) items).mono ?_
  intro calls items' heach
  rw [← List.flatMap_pure_eq_map, ← List.flatMap_pure_eq_map]
  refine heach.account ?_
  rintro o _ resolved ⟨chain, rfl, hinherits⟩
  rw [← List.append_nil chain.calls]
  exact .object o chain resolved [] [] [] hinherits .nil

theorem recorded_imageThen {whole : Option Image → α} {next : α → (σ : Type) → Host σ → Work σ α}
    {told : List Call → α → Prop} (firstGids : List (String × UInt32)) (i : Option Image)
    (hnext : ∀ i', Recorded (fun σ host => (next (whole i') σ host).toBake) fun back b =>
      ∀ front, Account firstGids (Part.ofImage i) front (Part.ofImage i') → told (front ++ back) b) :
    Recorded (fun σ host =>
      (andThen (part whole (image host i)) fun a => next a σ host).toBake) told := by
  simp only [toBake_andThen, toBake_part, bind_assoc, pure_bind]
  exact (image_recorded firstGids i).bind hnext

theorem tile_recorded (around : Surroundings) (t : Tile) :
    Recorded (fun _ host => (tile host around t).toBake) fun calls t' =>
      Account around.firstGids t.parts calls t'.parts := by
  refine recorded_imageThen around.firstGids t.image fun image => recorded_part ?_
  refine (objects_recorded around t.objects).mono ?_
  intro back objects hobjects front himage
  exact himage.append hobjects

theorem tileset_recorded (around : Surroundings) (t : Tileset) :
    Recorded (fun _ host => (tileset host around t).toBake) fun calls t' =>
      Account around.firstGids t.parts calls t'.parts ∧ Refilled t t' := by
  refine recorded_imageThen around.firstGids t.image fun image => recorded_part ?_
  refine (each_recorded (tile_recorded around) t.tiles).mono ?_
  intro back tiles htiles front himage
  exact ⟨himage.append (htiles.account fun _ _ _ h => h), image, tiles, rfl⟩

theorem grid_recorded (around : Surroundings) (name : String) (g : TileGrid) :
    Recorded (fun _ host => (grid host around name g).toBake) fun calls _ =>
      Account firstGids [] calls [] := by
  refine recorded_step ((recorded_liftExcept _ _).bind fun cells => (recorded_log _ _).bind fun _ =>
    (recorded_pure _).mono ?_)
  rintro _ _ ⟨rfl, rfl⟩ _ rfl _ ⟨rfl, _⟩
  exact .log _ _ [] [] [] .nil

mutual

theorem layer_recorded (around : Surroundings) : (l : Layer) →
    Recorded (fun _ host => (layer host around l).toBake) fun calls l' =>
      Account around.firstGids l.parts calls l'.parts
  | .tiles head g => by
      simp only [layer]
      exact recorded_within (recorded_part (grid_recorded around head.name g))
  | .image head picture => by
      simp only [layer]
      exact recorded_within (recorded_part (image_recorded around.firstGids picture.image))
  | .objects head items => by
      simp only [layer]
      exact recorded_within (recorded_part (objects_recorded around items))
  | .group head members => by
      simp only [layer]
      exact recorded_within (recorded_part (layers_recorded around members))

theorem layers_recorded (around : Surroundings) : (ls : List Layer) →
    Recorded (fun _ host => (layers host around ls).toBake) fun calls ls' =>
      Account around.firstGids (Layer.partsAmong ls) calls (Layer.partsAmong ls')
  | [] => by
      simp only [layers]
      refine (recorded_done []).mono ?_
      rintro _ _ ⟨rfl, rfl⟩
      exact .nil
  | l :: ls => by
      simp only [layers]
      refine recorded_cons (layer_recorded around l) (layers_recorded around ls) ?_
      intro l' ls' front back hfirst hothers
      exact hfirst.append hothers

end

inductive Loads : TilesetEntry → List Call → Tileset → Prop
  | inline (t : Tileset) : Loads (.inline t) [] t
  | external (firstGid : UInt32) (source : String) (t : Tileset) :
      Loads (.external firstGid source) [.tileset source t] { t with firstGid }

theorem calls_of_loads {entries : List TilesetEntry} {calls : List Call} {loaded : List Tileset}
    (h : Each Loads entries calls loaded) :
    ∀ call ∈ calls, ∃ path answer, call = .tileset path answer := by
  induction h with
  | nil => simp
  | cons entry _ _ _ _ _ hfirst _ ih =>
      rw [List.forall_mem_append]
      refine ⟨?_, ih⟩
      cases hfirst with
      | inline => simp
      | external _ source t =>
          rw [List.forall_mem_singleton]
          exact ⟨source, t, rfl⟩

theorem load_recorded (entry : TilesetEntry) :
    Recorded (fun _ host => (load host entry).toBake) fun calls entry' =>
      ∃ t, entry' = .inline t ∧ Loads entry calls t := by
  cases entry with
  | inline t =>
      refine (recorded_done (TilesetEntry.inline t)).mono ?_
      rintro _ _ ⟨rfl, rfl⟩
      exact ⟨t, rfl, .inline t⟩
  | external firstGid source =>
      refine recorded_step ((recorded_loadTileset source).bind fun t => (recorded_pure _).mono ?_)
      rintro _ _ ⟨rfl, rfl⟩ _ rfl
      exact ⟨{ t with firstGid }, rfl, .external firstGid source t⟩

theorem tilesetEntry_recorded (around : Surroundings) (entry : TilesetEntry) :
    Recorded (fun _ host => (tilesetEntry host around entry).toBake) fun calls entry' =>
      ∀ t, entry = .inline t → ∃ t', entry' = .inline t' ∧
        Account around.firstGids t.parts calls t'.parts ∧ Refilled t t' := by
  cases entry with
  | inline t =>
      have hentry : Recorded (fun _ host => (part TilesetEntry.inline (tileset host around t)).toBake)
          fun calls entry' => ∀ t₁, TilesetEntry.inline t = .inline t₁ → ∃ t', entry' = .inline t' ∧
            Account around.firstGids t₁.parts calls t'.parts ∧ Refilled t₁ t' := by
        refine recorded_part ((tileset_recorded around t).mono ?_)
        rintro calls t' ht' _ ⟨⟩
        exact ⟨t', rfl, ht'⟩
      cases hsource : t.source with
      | none =>
          simp only [tilesetEntry, hsource]
          exact hentry
      | some source =>
          simp only [tilesetEntry, hsource]
          exact recorded_within hentry
  | external firstGid source =>
      refine (recorded_done (TilesetEntry.external firstGid source)).mono ?_
      rintro _ _ _ _ ⟨⟩

theorem settle_recorded (settings : BakeSettings) (map : Map) :
    Recorded (fun σ _ => (settle settings map : Work σ Map).toBake) fun calls map' =>
      calls = [] ∧ ∃ background, map' = { map with background } := by
  cases hcheck : map.checkGids settings.checkRanges with
  | error e =>
      simp only [settle, hcheck]
      exact recorded_throw e
  | ok =>
      simp only [settle, hcheck]
      refine (recorded_done _).mono ?_
      rintro _ _ ⟨rfl, rfl⟩
      exact ⟨rfl, _, rfl⟩

theorem loadAll_recorded (map : Map) :
    Recorded (fun _ host => (loadAll host map).toBake) fun calls map' =>
      ∃ loaded, Each Loads map.tilesets calls loaded ∧
        map' = { map with tilesets := loaded.map .inline } := by
  refine recorded_part ((each_recorded load_recorded map.tilesets).mono ?_)
  intro calls entries hloads
  obtain ⟨loaded, rfl, hloaded⟩ := hloads.exists_map
  exact ⟨loaded, hloaded, rfl⟩

theorem tilesets_recorded (map : Map) :
    Recorded (fun _ host => (tilesets host map).toBake) fun calls map' =>
      ∀ loaded : List Tileset, map.tilesets = loaded.map .inline → ∃ refilled : List Tileset,
        List.Forall₂ Refilled loaded refilled ∧
        Account map.firstGids (loaded.flatMap Tileset.parts) calls
          (refilled.flatMap Tileset.parts) ∧
        map' = { map with tilesets := refilled.map .inline } := by
  simp only [tilesets]
  refine recorded_part
    ((each_recorded (tilesetEntry_recorded ⟨map.order, map.firstGids⟩) map.tilesets).mono ?_)
  intro calls entries heach loaded hloaded
  rw [hloaded] at heach
  obtain ⟨refilled, rfl, hrefilled⟩ := (heach.of_map.mono fun t _ _ h => h t rfl).exists_map
  exact ⟨refilled, hrefilled.forall₂ fun _ _ _ h => h.2, hrefilled.account fun _ _ _ h => h.1, rfl⟩

theorem allLayers_recorded (map : Map) :
    Recorded (fun _ host => (allLayers host map).toBake) fun calls map' =>
      ∃ layers, Account map.firstGids (Layer.partsAmong map.layers) calls (Layer.partsAmong layers) ∧
        map' = { map with layers } := by
  simp only [allLayers]
  refine recorded_part ((layers_recorded ⟨map.order, map.firstGids⟩ map.layers).mono ?_)
  intro calls layers haccount
  exact ⟨layers, haccount, rfl⟩

/-- The calls of an assembly: first those that load the tilesets, then those for the parts of the
map whose tilesets are at hand. -/
structure Transcript (before : Map) (loaded : List Tileset) (loads calls : List Call)
    (after : Map) : Prop where
  loads : Each Loads before.tilesets loads loaded
  tilesets : ∃ refilled : List Tileset, after.tilesets = refilled.map .inline ∧
    List.Forall₂ Refilled loaded refilled
  account : Account after.firstGids
    ({ before with tilesets := loaded.map .inline } : Map).parts calls after.parts

theorem assemble_recorded (settings : BakeSettings) (map : Map) :
    Recorded (fun _ host => (map.assemble host settings).toBake) fun calls after =>
      ∃ loaded front back, calls = front ++ back ∧ Transcript map loaded front back after := by
  refine recorded_andThen (loadAll_recorded map) fun loaded => ?_
  refine recorded_andThen (settle_recorded settings loaded) fun settled => ?_
  refine recorded_andThen (tilesets_recorded settled) fun shaped => ?_
  refine (allLayers_recorded shaped).mono ?_
  rintro calls _ ⟨layers, hlayers, rfl⟩ shapes hshaped _ ⟨rfl, background, rfl⟩ loads
    ⟨loaded, hloads, rfl⟩
  obtain ⟨refilled, hrefilled, hshapes, rfl⟩ := hshaped loaded rfl
  -- Both passes look ids up in the same table: refilled tilesets begin where they did.
  have hgids : ({ map with tilesets := loaded.map .inline, background } : Map).firstGids =
      ({ map with tilesets := refilled.map .inline, background, layers } : Map).firstGids :=
    firstGids_of_refilled rfl rfl hrefilled
  refine ⟨loaded, loads, shapes ++ calls, rfl, hloads, ⟨refilled, rfl, hrefilled⟩, ?_⟩
  rw [parts_of_inline rfl, parts_of_inline rfl]
  rw [hgids] at hshapes
  exact hshapes.append hlayers

theorem assembleTileset_recorded (t : Tileset) :
    Recorded (fun _ host => (t.assemble host).toBake) fun calls t' =>
      Account [] t.parts calls t'.parts :=
  (tileset_recorded {} t).mono fun _ _ h => h.1

namespace Transcript

variable {before after : Map} {loaded : List Tileset} {loads calls : List Call}

theorem refilled (h : Transcript before loaded loads calls after) :
    List.Forall₂ Refilled loaded after.loaded := by
  obtain ⟨refilled, hafter, hrefilled⟩ := h.tilesets
  rwa [loaded_of_inline hafter]

end Transcript

end TileKiln.Assembly
