import TileKiln.Proofs.Assembled
import TileKiln.Proofs.CompileCalls
import TileKiln.Proofs.MapObjects
import TileKiln.Proofs.TileOwnership

namespace TileKiln

open Assembly

variable {σ : Type}

namespace Template

variable {firstGids : List (String × UInt32)} {reference : String} {template : Template}
  {placed : Object}

/-- Only the id of a template's object is moved, and only if there is one. -/
theorem others_of_placed (h : template.placed firstGids reference = .ok placed) :
    placed.template = template.object.template ∧
      placed.gid.isSome = template.object.gid.isSome := by
  rw [Template.placed] at h
  split at h
  next tileset gid _ hgid =>
    split at h
    next =>
      cases h
      rw [hgid]
      exact ⟨rfl, rfl⟩
    next => cases h
  next =>
    cases h
    exact ⟨rfl, rfl⟩

theorem gid_of_placed {origin : TemplateTileset} {gid : UInt32}
    (h : template.placed firstGids reference = .ok placed) (horigin : template.tileset = some origin)
    (hgid : template.object.gid = some gid) :
    ∃ moved, Gid.remap firstGids origin gid = .ok moved ∧ placed.gid = some moved := by
  simp only [Template.placed, horigin, hgid] at h
  cases hremap : Gid.remap firstGids origin gid with
  | error e =>
      rw [hremap] at h
      cases h
  | ok moved =>
      rw [hremap] at h
      cases h
      exact ⟨moved, rfl, rfl⟩

end Template

namespace Object

variable {firstGids : List (String × UInt32)} {object resolved : Object} {chain : TemplateChain}

theorem follows_congr {object' : Object} (h : object.template = object'.template) :
    object.Follows chain ↔ object'.Follows chain := by
  cases chain with
  | nil => rw [Follows, Follows, h]
  | cons link chain => rw [Follows, Follows, h]

theorem Inherits.follows (h : object.Inherits firstGids chain resolved) :
    object.Follows chain := by
  induction h with
  | plain object htemplate => exact htemplate
  | template object reference template placed chain base htemplate hplaced _ ih =>
      exact ⟨htemplate, (follows_congr (Template.others_of_placed hplaced).1).1 ih⟩

theorem Inherits.gid_of_some (h : object.Inherits firstGids chain resolved) {gid : UInt32}
    (hgid : object.gid = some gid) : resolved.gid = some gid := by
  cases h with
  | plain _ _ => exact hgid
  | template _ reference template placed chain base _ _ _ =>
      change Field.inherit object.gid base.gid = _
      rw [hgid]
      rfl

theorem Inherits.gid_of_nearest (h : object.Inherits firstGids chain resolved)
    (hunset : object.gid = none) {reference : String} {template : Template}
    (hnearest : chain.find? (·.2.object.gid.isSome) = some (reference, template)) :
    ∃ placed, template.placed firstGids reference = .ok placed ∧ resolved.gid = placed.gid := by
  induction h with
  | plain object _ => cases hnearest
  | template object first front placed chain base _ hplaced hrest ih =>
      have hbase : (object.inherit base).gid = base.gid := by
        change Field.inherit object.gid base.gid = _
        rw [hunset]
        rfl
      rw [hbase]
      have hset := (Template.others_of_placed hplaced).2
      cases hgid : front.object.gid with
      | none =>
          rw [List.find?_cons_of_neg (by simp [hgid])] at hnearest
          rw [hgid, Option.isSome_none, Option.isSome_eq_false_iff, Option.isNone_iff_eq_none] at hset
          exact ih hset hnearest
      | some gid =>
          rw [List.find?_cons_of_pos (by simp [hgid])] at hnearest
          cases hnearest
          rw [hgid, Option.isSome_some] at hset
          obtain ⟨moved, hmoved⟩ := Option.isSome_iff_exists.1 hset
          exact ⟨placed, hplaced, (hrest.gid_of_some hmoved).trans hmoved.symm⟩

end Object

theorem exists_of_lookup_firstGids {map : Map} {source : String} {first : UInt32}
    (h : map.firstGids.lookup source = some first) :
    ∃ t, map.loaded.find? (·.source == some source) = some t ∧ t.firstGid = first := by
  rw [Map.firstGids] at h
  generalize map.loaded = ts at h ⊢
  induction ts with
  | nil => cases h
  | cons t ts ih =>
      rw [List.filterMap_cons] at h
      cases hsource : t.source with
      | none =>
          rw [hsource] at h
          rw [List.find?_cons_of_neg (by simp [hsource])]
          exact ih h
      | some own =>
          rw [hsource, Option.map_some, List.lookup_cons] at h
          by_cases hown : source = own
          · subst hown
            rw [beq_self_eq_true] at h
            cases h
            rw [List.find?_cons_of_pos (by simp [hsource])]
            exact ⟨t, rfl, rfl⟩
          · rw [beq_false_of_ne hown] at h
            rw [List.find?_cons_of_neg (by simpa [hsource] using Ne.symm hown)]
            exact ih h

theorem exists_mem_zip {α β : Type} {R : α → β → Prop} {as : List α} {bs : List β} {a : α}
    (h : List.Forall₂ R as bs) (ha : a ∈ as) : ∃ b, (a, b) ∈ as.zip bs ∧ R a b := by
  induction h with
  | nil => cases ha
  | cons hfirst _ ih =>
      rcases List.mem_cons.1 ha with rfl | ha
      · exact ⟨_, List.mem_cons_self, hfirst⟩
      · obtain ⟨b, hb, hR⟩ := ih ha
        exact ⟨b, List.mem_cons_of_mem _ hb, hR⟩

namespace Host

def NamesSources (host : Host σ) : Prop :=
  ∀ path t s s', host.Serves (.tileset path t) s s' → t.source = some path

theorem namesSources_of_loadDocument {host : Host σ}
    (h : host.loadTileset = loadDocument host.readText host.addDependency Tileset.parse) :
    host.NamesSources := by
  intro path t s s' hserves
  change (host.loadTileset path).run.run s = _ at hserves
  rw [h] at hserves
  obtain ⟨document, hparse⟩ := parsed_of_loadDocument hserves
  obtain ⟨root, _, hparse⟩ := ok_of_bind hparse
  obtain ⟨t', _, hparse⟩ := ok_of_bind hparse
  cases hparse
  rfl

end Host

def Tileset.LoadedFrom (host : Host σ) (calls : List Call) (source : String) (t : Tileset) : Prop :=
  t.source = some source ∧ ∃ path answer, .tileset path answer ∈ calls ∧
    t = { answer with firstGid := t.firstGid } ∧ (host.NamesSources → path = source)

theorem loadedFrom_of_loads {host : Host σ} {calls loads : List Call} {s s' : σ}
    {document path source : String} {parsed : Map} {loaded : List Tileset} {t : Tileset}
    (hreplays : host.Replays calls s s') (hcalls : loads ⊆ calls)
    (hparse : Map.parse document path = .ok parsed) (hloads : Each Loads parsed.tilesets loads loaded)
    (ht : t ∈ loaded) (hsource : t.source = some source) : t.LoadedFrom host calls source := by
  refine ⟨hsource, ?_⟩
  obtain ⟨entry, hentry, own, hown, hload⟩ := hloads.exists_of_mem ht
  cases hload with
  | inline t =>
      rw [Map.source_of_parse hparse hentry] at hsource
      cases hsource
  | external firstGid path answer =>
      have hcall := hcalls (hown List.mem_cons_self)
      refine ⟨path, answer, hcall, rfl, ?_⟩
      intro hnames
      obtain ⟨s₁, s₂, hserves⟩ := hreplays.serves_of_mem hcall
      have hpath := hnames path answer s₁ s₂ hserves
      exact Option.some.inj (hpath.symm.trans hsource)

/-- An object without an id of its own: the nearest template that sets one has it from a tileset. -/
structure Instance.Authored (i : Instance) (origin : TemplateTileset) (gid : UInt32) : Prop where
  unset : i.object.gid = none
  nearest : ∃ reference template,
    i.chain.find? (·.2.object.gid.isSome) = some (reference, template) ∧
      template.object.gid = some gid ∧ template.tileset = some origin
  tile : Gid.tile gid ≠ 0

theorem Instance.Authored.moved {i : Instance} {origin : TemplateTileset} {gid : UInt32}
    (h : i.Authored origin gid) {firstGids : List (String × UInt32)}
    (hinherits : i.object.Inherits firstGids i.chain i.resolved) :
    ∃ moved, Gid.remap firstGids origin gid = .ok moved ∧ i.resolved.gid = some moved := by
  obtain ⟨reference, template, hnearest, hgid, horigin⟩ := h.nearest
  obtain ⟨placed, hplaced, hresolved⟩ := hinherits.gid_of_nearest h.unset hnearest
  obtain ⟨moved, hremap, hmoved⟩ := Template.gid_of_placed hplaced horigin hgid
  exact ⟨moved, hremap, hresolved.trans hmoved⟩

/-- An object draws, with some flip flags, the tile `id` of a tileset of the map. The id leads to that
tileset unless it is beyond the tiles that the tileset counts. -/
def Baked.Map.Draws (m : Baked.Map) (o : Baked.Object) (b : Baked.Tileset) (id flips : UInt32) :
    Prop :=
  ∃ gid, o.shape = .tile gid ∧ Gid.flips gid = flips ∧
    b.firstGid ≤ Gid.tile gid ∧ Gid.tile gid - b.firstGid = id ∧
    (m.owner? gid = some b ↔ id < b.tileCount)

theorem Baked.Map.draws_of_gid {m : Baked.Map} {o : TileKiln.Object} {b : Baked.Tileset} {gid id : UInt32}
    (hm : GidRange.Addressable (m.tilesets.map Baked.Tileset.range)) (hb : b ∈ m.tilesets)
    (hgid : o.gid = some gid) (hmoved : (Gid.tile gid).toNat = b.firstGid.toNat + id.toNat) :
    m.Draws o.baked b id (Gid.flips gid) := by
  have hle : b.firstGid ≤ Gid.tile gid := by
    rw [UInt32.le_iff_toNat_le]
    omega
  have hzero : gid ≠ 0 := by
    rintro rfl
    have hpositive : b.firstGid ≠ 0 := hm.positive b.range (List.mem_map_of_mem hb)
    apply hpositive
    rw [UInt32.le_iff_toNat_le] at hle
    exact UInt32.toNat_inj.1 (Nat.le_zero.1 hle)
  have hhas : b.range.Has (Gid.tile gid) ↔ id < b.tileCount := by
    simp only [GidRange.Has, Baked.Tileset.range, UInt32.lt_iff_toNat_lt]
    omega
  refine ⟨gid, ?_, rfl, hle, ?_, ?_⟩
  · change o.shape = _
    rw [TileKiln.Object.shape, hgid]
    exact if_neg hzero
  · apply UInt32.toNat_inj.1
    rw [UInt32.toNat_sub_of_le _ _ hle]
    omega
  · rw [← hhas]
    constructor
    · intro howner
      exact (has_of_owner? howner).2
    · intro hhas
      exact owner?_eq_some hm hb hhas

namespace Assembly.Transcript

variable {parsed after : Map} {loaded : List Tileset} {loads shapes : List Call}

theorem forall₂_baked (h : Transcript parsed loaded loads shapes after) :
    List.Forall₂ (fun t b => ∃ t', Refilled t t' ∧ b = t'.baked) loaded after.baked.tilesets :=
  List.forall₂_map_right_iff.2 (h.refilled.imp fun _ t' ht' => ⟨t', ht', rfl⟩)

theorem template?_loads (h : Transcript parsed loaded loads shapes after) :
    loads.filterMap Call.template? = [] := by
  rw [List.filterMap_eq_nil_iff]
  intro call hcall
  obtain ⟨path, answer, rfl⟩ := calls_of_loads h.loads call hcall
  rfl

/-- Where ids are moved to begins a tileset that has been loaded. -/
theorem exists_of_lookup (h : Transcript parsed loaded loads shapes after) {source : String}
    {first : UInt32} (hfirst : after.firstGids.lookup source = some first) :
    ∃ t, loaded.find? (·.source == some source) = some t ∧ t.firstGid = first := by
  have hgids : ({ parsed with tilesets := loaded.map .inline } : Map).firstGids =
      after.firstGids := by
    obtain ⟨refilled, hafter, hrefilled⟩ := h.tilesets
    exact firstGids_of_refilled rfl hafter hrefilled
  rw [← hgids] at hfirst
  obtain ⟨t, ht, hgid⟩ := exists_of_lookup_firstGids hfirst
  rw [loaded_of_inline rfl] at ht
  exact ⟨t, ht, hgid⟩

theorem draws_of_authored (h : Transcript parsed loaded loads shapes after)
    (hafter : GidRange.Addressable (after.baked.tilesets.map Baked.Tileset.range)) {i : Instance}
    (hinherits : i.object.Inherits after.firstGids i.chain i.resolved) {origin : TemplateTileset}
    {gid : UInt32} (hauthored : i.Authored origin gid) :
    ∃ t b, loaded.find? (·.source == some origin.source) = some t ∧
      (t, b) ∈ loaded.zip after.baked.tilesets ∧ origin.firstGid ≤ Gid.tile gid ∧
      after.baked.Draws i.resolved.baked b (Gid.tile gid - origin.firstGid) (Gid.flips gid) := by
  obtain ⟨moved, hremap, hmoved⟩ := hauthored.moved hinherits
  obtain ⟨first, hfirst, hle, htile, hflips⟩ := Gid.cases_of_remap hremap hauthored.tile
  obtain ⟨t, ht, rfl⟩ := h.exists_of_lookup hfirst
  obtain ⟨b, hb, t', ⟨image, tiles, rfl⟩, rfl⟩ :=
    exists_mem_zip h.forall₂_baked (List.mem_of_find?_eq_some ht)
  refine ⟨t, _, ht, hb, hle, ?_⟩
  rw [← hflips]
  exact Baked.Map.draws_of_gid hafter (List.of_mem_zip hb).2 hmoved htile

end Assembly.Transcript

/-- In a map with checked ranges, an object that has its id from a template draws the tile that the
template was authored with, in the first tileset that was loaded from the template's. The id leads to
that tileset as long as the tile is one of those that the tileset counts. -/
theorem draws_of_template {host : Host σ} {settings : BakeSettings} {document path : String}
    {stream : List UInt8} {s s' : σ} {m : Baked.Map} (hsettings : settings.checkRanges = true)
    (hcompile : (compileMap host settings document path).run.run s = (.ok stream, s'))
    (hread : Baked.Map.read stream = .ok m) :
    let calls := host.calls (fun _ host => compileMap host settings document path) s
    ∃ (parsed : Map) (loaded : List Tileset) (loads : List Call) (instances : List Instance),
      Map.parse document path = .ok parsed ∧
      Each Loads parsed.tilesets loads loaded ∧ loads ⊆ calls ∧
      List.Forall₂ (fun t b => ∃ t', Refilled t t' ∧ b = t'.baked) loaded m.tilesets ∧
      instances.map Instance.object = ({ parsed with tilesets := loaded.map .inline } : Map).objects ∧
      instances.flatMap Instance.chain = calls.filterMap Call.template? ∧
      instances.map (·.resolved.baked) = m.objects ∧
      ∀ i ∈ instances, i.object.Follows i.chain ∧ ∀ origin gid, i.Authored origin gid →
        ∃ t b, loaded.find? (·.source == some origin.source) = some t ∧
          t.LoadedFrom host calls origin.source ∧ (t, b) ∈ loaded.zip m.tilesets ∧
          origin.firstGid ≤ Gid.tile gid ∧
          m.Draws i.resolved.baked b (Gid.tile gid - origin.firstGid) (Gid.flips gid) := by
  have hm := Baked.Map.addressable_of_compileMap hsettings hcompile hread
  obtain ⟨hreplays, htold, _⟩ := (recorded_compileMap settings document path).of_run hcompile
  intro calls
  change host.Replays calls s s' at hreplays
  obtain ⟨parsed, loaded, loads, shapes, after, hcalls, hparse, htranscript, hwrite⟩ := htold
  change calls = _ at hcalls
  obtain rfl := Baked.eq_baked_of_read htranscript.isLoaded hwrite hread
  obtain ⟨instances, hobjects, hchains, hresolved, hinherits⟩ :=
    htranscript.account.exists_instances
  have hsubset : loads ⊆ calls := by
    rw [hcalls]
    intro call hcall
    exact List.mem_cons_of_mem _ (List.mem_append_left shapes hcall)
  refine ⟨parsed, loaded, loads, instances, hparse, htranscript.loads, hsubset,
    htranscript.forall₂_baked, hobjects, ?_, ?_, ?_⟩
  · rw [hchains, hcalls, List.filterMap_cons_none rfl, List.filterMap_append,
      htranscript.template?_loads, List.nil_append]
  · rw [Map.objects_baked htranscript.isLoaded, Map.objects, ← hresolved, List.map_map]
    rfl
  · intro i hi
    refine ⟨(hinherits i hi).follows, ?_⟩
    intro origin gid hauthored
    obtain ⟨t, b, ht, hb, hle, hdraws⟩ := htranscript.draws_of_authored hm (hinherits i hi) hauthored
    have hsource : t.source = some origin.source := by simpa using List.find?_some ht
    have hloaded := loadedFrom_of_loads hreplays hsubset hparse htranscript.loads
      (List.mem_of_find?_eq_some ht) hsource
    exact ⟨t, b, ht, hloaded, hb, hle, hdraws⟩

namespace TemplateTiles

def sampleDocument : String :=
  "<map><tileset firstgid=\"3\" source=\"cave.tsx\"/><objectgroup>" ++
  "<object template=\"near.tx\"/><object template=\"far.tx\"/></objectgroup></map>"

def sampleTokens : List Xml.Token :=
  [.opening ⟨"", "map"⟩ [] false,
   .opening ⟨"", "tileset"⟩ [(⟨"", "firstgid"⟩, "3"), (⟨"", "source"⟩, "cave.tsx")] true,
   .opening ⟨"", "objectgroup"⟩ [] false,
   .opening ⟨"", "object"⟩ [(⟨"", "template"⟩, "near.tx")] true,
   .opening ⟨"", "object"⟩ [(⟨"", "template"⟩, "far.tx")] true,
   .closing ⟨"", "objectgroup"⟩, .closing ⟨"", "map"⟩]

def sampleRoot : Xml.Node :=
  .element "map" []
    [.element "tileset" [("firstgid", "3"), ("source", "cave.tsx")] [],
     .element "objectgroup" []
       [.element "object" [("template", "near.tx")] [],
        .element "object" [("template", "far.tx")] []]]

def sampleMap : Map where
  tilesets := [.external 3 "cave.tsx"]
  layers := [.objects {} [{ template := some "near.tx" }, { template := some "far.tx" }]]

theorem parse_sampleDocument : Map.parse sampleDocument "level.tmx" = .ok sampleMap := by
  have htokens : Xml.Reads sampleDocument sampleTokens := by decide +kernel
  have hroot : Xml.parse? sampleDocument = some sampleRoot := htokens.parse? rfl
  have hmap : Document.map (Path.parent "level.tmx") sampleRoot = .ok sampleMap := by
    with_unfolding_all rfl
  rw [Map.parse, Document.root, hroot]
  exact hmap

def sampleAnswers : Answers where
  tileset path := .ok { source := some path, tileCount := 4 }
  template path := .ok ⟨some ⟨1, "cave.tsx"⟩, { gid := some (if path = "near.tx" then 2 else 10) }⟩
  image path := .ok path

def sampleTileset : Tileset := { source := some "cave.tsx", firstGid := 3, tileCount := 4 }

def sampleLoaded : Map := { sampleMap with tilesets := [.inline sampleTileset] }

def sampleAround : Surroundings := ⟨.rightDown, [("cave.tsx", 3)]⟩

def sampleAssembled : Map where
  background := some .black
  tilesets := [.inline sampleTileset]
  layers := [.objects {} [{ template := some "near.tx", gid := some 4 },
    { template := some "far.tx", gid := some 12 }]]

theorem resolve_sample (reference : String) (gid : UInt32)
    (h : sampleAnswers.object sampleAround.firstGids reference = .ok { gid := some gid }) :
    ({ template := some reference } : Object).resolveInPlace
        (templates sampleAnswers.host sampleAround) () =
      (⟨{ template := some reference, gid := some gid }, none⟩, ()) := by
  have hchain : Object.Chain (sampleAnswers.object sampleAround.firstGids)
      { template := some reference } [reference] [{ gid := some gid }] :=
    .template _ _ _ _ _ rfl h (.plain _ rfl)
  exact hchain.resolveInPlace_eq (templates_answers sampleAnswers.host_gives)
    (List.nodup_singleton _) ()

theorem assemble_sample :
    sampleMap.assemble sampleAnswers.host {} () = (⟨sampleAssembled, none⟩, ()) := by
  have hranges : Tileset.checkRanges [sampleTileset] = .ok () := by
    rw [Tileset.checkRanges, List.mergeSort_singleton]
    rfl
  have hsettle : settle (σ := Unit) {} sampleLoaded =
      Work.done { sampleLoaded with background := some .black } := settle_of_checked hranges
  have hnear := resolve_sample "near.tx" 4 rfl
  have hfar := resolve_sample "far.tx" 12 rfl
  have hlayers : layers sampleAnswers.host sampleAround sampleMap.layers () =
      (⟨sampleAssembled.layers, none⟩, ()) := by
    simp only [sampleMap, layers, layer, objects, object, Work.each, Work.cons, Work.part,
      Work.within, hnear, hfar]
    rfl
  change Work.andThen (settle {} sampleLoaded) _ () = _
  rw [hsettle]
  change Work.part (fun layers => { sampleAssembled with layers })
    (layers sampleAnswers.host sampleAround sampleMap.layers) () = _
  rw [Work.part, hlayers]

theorem bake_sample :
    ∃ stream m, (compileMap sampleAnswers.host {} sampleDocument "level.tmx").run.run () =
        (.ok stream, ()) ∧
      Baked.Map.read stream = .ok m ∧ m.objects.map (·.shape) = [.tile 4, .tile 12] ∧
      m.tilesets.map Baked.Tileset.range = [⟨3, 4⟩] := by
  have hview : ((Writer.bytes sampleAssembled.write).toOption.bind fun stream =>
      (Baked.Map.read stream).toOption.map fun m =>
        (m.objects.map (·.shape), m.tilesets.map Baked.Tileset.range)) =
      some ([.tile 4, .tile 12], [⟨3, 4⟩]) := by decide +kernel
  obtain ⟨stream, hwrite, hview⟩ := Option.bind_eq_some_iff.1 hview
  obtain ⟨m, hread, hview⟩ := Option.map_eq_some_iff.1 hview
  obtain ⟨hshapes, hranges⟩ := Prod.ext_iff.1 hview
  exact ⟨stream, m, compileMap_of_ok rfl parse_sampleDocument assemble_sample (ok_of_toOption hwrite),
    ok_of_toOption hread, hshapes, hranges⟩

theorem answer_of_mem_calls {calls : List Call} {path : String} {template : Template}
    (hreplays : sampleAnswers.host.Replays calls () ())
    (hcall : (path, template) ∈ calls.filterMap Call.template?) :
    sampleAnswers.template path = .ok template := by
  obtain ⟨call, hcall, hpath⟩ := List.mem_filterMap.1 hcall
  obtain ⟨s₁, s₂, hserves⟩ := hreplays.serves_of_mem hcall
  cases call with
  | template path' answer =>
      cases hpath
      exact congrArg Prod.fst hserves
  | tileset | image | dependency | log => cases hpath

/-- The template of the second tile, which the map has as its fourth id. -/
theorem draws_of_template_sample :
    ∃ stream m, (compileMap sampleAnswers.host {} sampleDocument "level.tmx").run.run () =
        (.ok stream, ()) ∧
      Baked.Map.read stream = .ok m ∧ ∃ o ∈ m.objects, ∃ b ∈ m.tilesets, m.Draws o b 1 0 := by
  obtain ⟨stream, m, hcompile, hread, _⟩ := bake_sample
  refine ⟨stream, m, hcompile, hread, ?_⟩
  have hsettings : ({} : BakeSettings).checkRanges = true := rfl
  obtain ⟨parsed, loaded, loads, instances, hparse, _, _, _, hobjects, hchains, hresolved, hall⟩ :=
    draws_of_template hsettings hcompile hread
  obtain ⟨hreplays, _⟩ := (recorded_compileMap _ _ _).of_run hcompile
  obtain rfl := Except.ok.inj (hparse.symm.trans parse_sampleDocument)
  obtain ⟨i, hi, hobject⟩ : ∃ i ∈ instances, i.object = { template := some "near.tx" } := by
    rw [← List.mem_map (f := Instance.object), hobjects, Map.objects, Map.parts]
    have hpart : Part.object { template := some "near.tx" } ∈ Layer.partsAmong sampleMap.layers :=
      List.mem_cons_self
    exact List.mem_filterMap.2 ⟨_, List.mem_append_right _ hpart, rfl⟩
  obtain ⟨hfollows, hdraws⟩ := hall i hi
  have hauthored : i.Authored ⟨1, "cave.tsx"⟩ 2 := by
    have hchain : i.chain ⊆ instances.flatMap Instance.chain := by
      intro link hlink
      exact List.mem_flatMap.2 ⟨i, hi, hlink⟩
    rw [hobject] at hfollows
    cases hi : i.chain with
    | nil =>
        rw [hi] at hfollows
        cases hfollows
    | cons link rest =>
        obtain ⟨reference, template⟩ := link
        rw [hi] at hfollows hchain
        obtain rfl : "near.tx" = reference := Option.some.inj hfollows.1
        have hlink := hchain List.mem_cons_self
        rw [hchains] at hlink
        have hanswer := answer_of_mem_calls hreplays hlink
        cases hanswer
        exact ⟨by rw [hobject], ⟨_, _, by rw [hi]; rfl, rfl, rfl⟩, by decide⟩
  obtain ⟨t, b, _, _, hb, _, hdraws⟩ := hdraws _ _ hauthored
  refine ⟨i.resolved.baked, ?_, b, (List.of_mem_zip hb).2, hdraws⟩
  rw [← hresolved]
  exact List.mem_map_of_mem hi

/-- The template of a tenth tile, of which the set has only four, draws a tile of no set. -/
theorem not_owned_beyond_tileCount :
    Map.parse sampleDocument "level.tmx" = .ok sampleMap ∧
    sampleAnswers.template "far.tx" = .ok ⟨some ⟨1, "cave.tsx"⟩, { gid := some 10 }⟩ ∧
    sampleAnswers.tileset "cave.tsx" = .ok { source := some "cave.tsx", tileCount := 4 } ∧
    ∃ stream m, (compileMap sampleAnswers.host {} sampleDocument "level.tmx").run.run () =
        (.ok stream, ()) ∧
      Baked.Map.read stream = .ok m ∧ m.objects.map (·.shape) = [.tile 4, .tile 12] ∧
      m.owner? 12 = none := by
  obtain ⟨stream, m, hcompile, hread, hshapes, hranges⟩ := bake_sample
  refine ⟨parse_sampleDocument, rfl, rfl, stream, m, hcompile, hread, hshapes, ?_⟩
  rw [Baked.Map.owner?_eq_none_iff]
  intro t ht
  have hrange : t.range ∈ [(⟨3, 4⟩ : GidRange)] := hranges ▸ List.mem_map_of_mem ht
  rw [List.mem_singleton.1 hrange]
  decide

end TemplateTiles

end TileKiln
