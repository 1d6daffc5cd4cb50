import TileKiln.Compile
import TileKiln.Proofs.HostCalls
import TileKiln.Proofs.TileFormats
import TileKiln.Proofs.WorkResults

namespace TileKiln

variable {σ α β γ : Type}

/-- Two forms of one grid of cells, which is not so large that its bytes could not be counted. -/
def TileData.SameGrid (width height : UInt32) (data data' : TileData) : Prop :=
  ∃ gids : List UInt32, gids.length = width.toNat * height.toNat ∧
    (width.toNat * height.toNat + 1) * 4 < UInt64.size ∧ data.Encodes gids ∧ data'.Encodes gids

theorem TileData.SameGrid.decode {width height : UInt32} {data data' : TileData}
    (h : SameGrid width height data data') :
    ∃ gids, data.decode width height = .ok gids ∧ data'.decode width height = .ok gids := by
  obtain ⟨gids, hlength, hsize, hdata, hdata'⟩ := h
  exact ⟨gids, decode_of_encodes hdata hlength hsize, decode_of_encodes hdata' hlength hsize⟩

inductive Layer.Resaved : Layer → Layer → Prop
  | same (l : Layer) : Resaved l l
  | tiles (head : LayerHead) (grid : TileGrid) (data : TileData)
      (h : TileData.SameGrid grid.width grid.height grid.data data) :
      Resaved (.tiles head grid) (.tiles head { grid with data })
  | group (head : LayerHead) (members members' : List Layer)
      (h : List.Forall₂ Resaved members members') :
      Resaved (.group head members) (.group head members')

def Map.Resaved (map map' : Map) : Prop :=
  ∃ layers, List.Forall₂ Layer.Resaved map.layers layers ∧ map' = { map with layers }

/-- What is made of equal views of two results is equal, if it depends on nothing but the view. -/
theorem Bake.map_congr {view : α → β} {f : α → γ} {act act' : Bake σ α}
    (hview : view <$> act = view <$> act') (hf : ∀ a a', view a = view a' → f a = f a') :
    f <$> act = f <$> act' := by
  rw [map_eq_pure_bind, map_eq_pure_bind] at hview ⊢
  funext s
  have hrun := congrFun hview s
  rw [run_bind, run_bind] at hrun ⊢
  generalize act s = run, act' s = run' at hrun ⊢
  rcases run with ⟨_ | a, s₁⟩ <;> rcases run' with ⟨_ | a', s₁'⟩
  · cases hrun
    rfl
  · cases hrun
  · cases hrun
  · have hview : view a = view a' := Except.ok.inj (congrArg Prod.fst hrun)
    have hstate : s₁ = s₁' := congrArg Prod.snd hrun
    dsimp only
    rw [hf a a' hview, hstate]

namespace Work

theorem map_toBake_within (f : α → β) (place : BakeError → BakeError) (work : Work σ α) :
    f <$> (within place work).toBake =
      tryCatch (f <$> work.toBake) fun e => throw (e.within place) := by
  funext s
  rw [Bake.run_tryCatch, map_eq_pure_bind, map_eq_pure_bind, run_bind, run_bind]
  simp only [toBake, ExceptT.mk, within]
  rcases work s with ⟨⟨a, _ | e⟩, s₁⟩ <;> rfl

theorem map_toBake_part (f : α → γ) (whole : β → α) (work : Work σ β) :
    f <$> (part whole work).toBake = (fun b => f (whole b)) <$> work.toBake := by
  rw [toBake_part, bind_pure_comp, Functor.map_map]

theorem map_toBake_cons (f : α → β) (first : Work σ α) (others : List α)
    (next : Work σ (List α)) :
    List.map f <$> (cons first others next).toBake = do
      let b ← f <$> first.toBake
      let bs ← List.map f <$> next.toBake
      return b :: bs := by
  simp only [toBake_cons, map_bind, map_pure, bind_map_left, List.map_cons]

end Work

namespace Baked.Writer

theorem eachLayer_eq (ls : List TileKiln.Layer) :
    eachLayer ls = TileKiln.Writer.each id (ls.map layer) := by
  induction ls with
  | nil => rfl
  | cons l ls ih => rw [eachLayer, ih, List.map_cons, TileKiln.Writer.each, id]

theorem layers_eq (ls : List TileKiln.Layer) :
    layers ls = TileKiln.Writer.table id (ls.map layer) := by
  rw [layers, eachLayer_eq, TileKiln.Writer.table, List.length_map]

theorem layer_group (head : LayerHead) (members : List TileKiln.Layer) :
    layer (.group head members) =
      layerAround head .group (TileKiln.Writer.table id (members.map layer)) := by
  rw [layer, ← layers_eq, layers]

end Baked.Writer

namespace Assembly

variable (host : Host σ) (around : Surroundings)

theorem grid_of_sameGrid (head : LayerHead) {g : TileGrid} {data : TileData}
    (h : TileData.SameGrid g.width g.height g.data data) :
    (fun g => Baked.Writer.layer (.tiles head g)) <$> (grid host around head.name g).toBake =
      (fun g => Baked.Writer.layer (.tiles head g)) <$>
        (grid host around head.name { g with data }).toBake := by
  obtain ⟨gids, hdata, hdata'⟩ := h.decode
  rw [grid, grid, Work.toBake_step, Work.toBake_step, hdata, hdata']
  simp only [map_bind, map_pure]
  rfl

mutual

-- A layer is seen through what is written of it, for the assembled layers keep the different data.

theorem layer_of_resaved : (l : Layer) → {l' : Layer} → (h : l.Resaved l') →
    Baked.Writer.layer <$> (layer host around l).toBake =
      Baked.Writer.layer <$> (layer host around l').toBake
  | .tiles head g, _, h => by
      cases h with
      | same => rfl
      | tiles _ _ data h =>
          have hgrid := grid_of_sameGrid host around head h
          rw [layer, layer, Work.map_toBake_within, Work.map_toBake_within]
          rw [Work.map_toBake_part, Work.map_toBake_part, hgrid]
  | .image _ _, _, h | .objects _ _, _, h => by
      cases h
      rfl
  | .group head members, _, h => by
      cases h with
      | same => rfl
      | group _ _ members' h =>
          have hmembers := layers_of_resaved members h
          have hwritten := Bake.map_congr hmembers (f := fun ls => Baked.Writer.layer (.group head ls))
            fun ls ls' h => by rw [Baked.Writer.layer_group, h, Baked.Writer.layer_group]
          rw [layer, layer, Work.map_toBake_within, Work.map_toBake_within, Work.map_toBake_part,
            Work.map_toBake_part, hwritten]

theorem layers_of_resaved : (ls : List Layer) → {ls' : List Layer} →
    (h : List.Forall₂ Layer.Resaved ls ls') →
    List.map Baked.Writer.layer <$> (layers host around ls).toBake =
      List.map Baked.Writer.layer <$> (layers host around ls').toBake
  | [], _, .nil => rfl
  | l :: ls, _, .cons hfirst hrest => by
      have hlayer := layer_of_resaved l hfirst
      have hothers := layers_of_resaved ls hrest
      rw [layers, layers, Work.map_toBake_cons, Work.map_toBake_cons, hlayer, hothers]

end

variable {host} {map map' : Map}

theorem andThen_of_resaved {next : Map → Work σ Map} (work : Work σ (List TilesetEntry))
    (h : map.Resaved map')
    (hnext : ∀ map map' : Map, map.Resaved map' →
      Map.write <$> (next map).toBake = Map.write <$> (next map').toBake) :
    Map.write <$> ((Work.part (fun tilesets => { map with tilesets }) work).andThen next).toBake =
      Map.write <$>
        ((Work.part (fun tilesets => { map' with tilesets }) work).andThen next).toBake := by
  simp only [Work.toBake_andThen, Work.toBake_part, map_bind, bind_assoc, pure_bind]
  -- The work on the tilesets is the same for both maps; only what is done with its result differs.
  apply bind_congr
  intro tilesets
  obtain ⟨ls, hlayers, rfl⟩ := h
  exact hnext _ _ ⟨ls, hlayers, rfl⟩

theorem settle_of_resaved {next : Map → Work σ Map} (settings : BakeSettings)
    (h : map.Resaved map')
    (hnext : ∀ map map' : Map, map.Resaved map' →
      Map.write <$> (next map).toBake = Map.write <$> (next map').toBake) :
    Map.write <$> ((settle settings map).andThen next).toBake =
      Map.write <$> ((settle settings map').andThen next).toBake := by
  obtain ⟨ls, hlayers, rfl⟩ := h
  have hcheck : ({ map with layers := ls } : Map).checkGids settings.checkRanges =
    map.checkGids settings.checkRanges := rfl
  rw [settle, settle, hcheck]
  cases map.checkGids settings.checkRanges with
  | error e => rfl
  | ok => exact hnext _ _ ⟨ls, hlayers, rfl⟩

theorem allLayers_of_resaved (h : map.Resaved map') :
    Map.write <$> (allLayers host map).toBake = Map.write <$> (allLayers host map').toBake := by
  obtain ⟨ls, hlayers, rfl⟩ := h
  rw [allLayers, allLayers, Work.map_toBake_part, Work.map_toBake_part]
  refine Bake.map_congr (layers_of_resaved host _ map.layers hlayers) fun painted painted' hpainted => ?_
  rw [Map.write, Map.write, Baked.Writer.layers_eq, hpainted, ← Baked.Writer.layers_eq]

end Assembly

theorem Map.assemble_of_resaved {map map' : Map} (h : map.Resaved map') (host : Host σ)
    (settings : BakeSettings) :
    Map.write <$> (map.assemble host settings).toBake =
      Map.write <$> (map'.assemble host settings).toBake := by
  obtain ⟨ls, hlayers, rfl⟩ := h
  apply Assembly.andThen_of_resaved _ ⟨ls, hlayers, rfl⟩
  intro loaded _ hloaded
  apply Assembly.settle_of_resaved settings hloaded
  rintro settled _ ⟨ls, hlayers, rfl⟩
  exact Assembly.andThen_of_resaved _ ⟨ls, hlayers, rfl⟩ fun _ _ => Assembly.allLayers_of_resaved

def Map.bakeGraph (settings : BakeSettings) (path : String) (map : Map) : Hosted (List UInt8) :=
  fun _ host => reporting host path (compileWith (.ok map) (Map.assemble host settings) Map.write)

theorem compileWith_of_resaved {map map' : Map} (h : map.Resaved map') (host : Host σ)
    (settings : BakeSettings) :
    compileWith (.ok map) (Map.assemble host settings) Map.write =
      compileWith (.ok map') (Map.assemble host settings) Map.write := by
  have hwritten (map : Map) : compileWith (.ok map) (Map.assemble host settings) Map.write =
      Map.write <$> (map.assemble host settings).toBake >>= fun write =>
        liftExcept (write.bytes.mapError BakeError.write) := by
    rw [bind_map_left]
    rfl
  rw [hwritten, Map.assemble_of_resaved h, ← hwritten]

/-- To save a map again with other formats of cells changes nothing. Every format gives back the
cells; and over every host the graphs lead to the same calls, and to the same bytes or the same
error, and so do documents that hold them. -/
theorem bake_eq_of_resaved :
    (∀ (data : TileData) (gids : List UInt32) (width height : UInt32), data.Encodes gids →
      gids.length = width.toNat * height.toNat →
      (width.toNat * height.toNat + 1) * 4 < UInt64.size → data.decode width height = .ok gids) ∧
    ∀ map map' : Map, map.Resaved map' →
      ∀ (σ : Type) (host : Host σ) (settings : BakeSettings) (path : String) (s : σ),
        host.calls (map.bakeGraph settings path) s = host.calls (map'.bakeGraph settings path) s ∧
        (map.bakeGraph settings path σ host).run.run s =
          (map'.bakeGraph settings path σ host).run.run s ∧
        ∀ document document', Map.parse document path = .ok map →
          Map.parse document' path = .ok map' →
          (compileMap host settings document path).run.run s =
            (compileMap host settings document' path).run.run s := by
  refine ⟨fun _ _ _ _ h => TileData.decode_of_encodes h, ?_⟩
  intro map map' h σ host settings path s
  have hbake : map.bakeGraph settings path = map'.bakeGraph settings path := by
    funext τ other
    rw [Map.bakeGraph, Map.bakeGraph, compileWith_of_resaved h]
  refine ⟨by rw [hbake], by rw [hbake], fun document document' hparse hparse' => ?_⟩
  rw [compileMap, compileMap, hparse, hparse', compileWith_of_resaved h]

namespace ResavedMap

def sampleGids : List UInt32 := [1, 0x80000001]

def sampleText : TileData := ⟨some "csv", none, .text " 1,\n2147483649 "⟩

def samplePacked : TileData :=
  ⟨some "base64", some "zlib", .text "\n  eAEBCAD3/wEAAAABAACAAJQAgw=="⟩

def sampleMap (data : TileData) : Map where
  width := 2
  height := 1
  layers := [.group {} [.tiles {} { width := 2, height := 1, data }]]

theorem sampleText_encodes : sampleText.Encodes sampleGids := by
  have hfirst : Text.Padded (Text.decimal 1) [' ', '1'] := ⟨[' '], [], rfl, by decide, by decide⟩
  have hsecond : Text.Padded (Text.decimal 0x80000001) "\n2147483649 ".toList :=
    ⟨['\n'], [' '], by decide +kernel, by decide, by decide⟩
  have htext : [' ', '1'] ++ ',' :: "\n2147483649 ".toList = " 1,\n2147483649 ".toList := by
    decide +kernel
  have hcsv := TileData.Csv.cons _ _ _ _ hfirst (.last _ _ hsecond)
  rw [htext] at hcsv
  exact .csv sampleGids _ hcsv

def sampleStream : List UInt8 :=
  [120, 1, 1, 8, 0, 247, 255, 1, 0, 0, 0, 1, 0, 0, 128, 0, 148, 0, 131]

theorem samplePacked_encodes : samplePacked.Encodes sampleGids :=
  .zlib sampleGids sampleStream _ (by decide +kernel)
    ⟨['\n', ' ', ' '], [], by decide +kernel, by decide, by decide⟩

theorem sampleMap_resaved : (sampleMap sampleText).Resaved (sampleMap samplePacked) := by
  have hgrid : TileData.SameGrid 2 1 sampleText samplePacked :=
    ⟨sampleGids, rfl, by decide, sampleText_encodes, samplePacked_encodes⟩
  exact ⟨_, .cons (.group _ _ _ (.cons (.tiles _ _ _ hgrid) .nil)) .nil, rfl⟩

theorem bake_eq_of_resaved_sample :
    sampleText.decode 2 1 = .ok sampleGids ∧ samplePacked.decode 2 1 = .ok sampleGids ∧
      ∀ (σ : Type) (host : Host σ) (settings : BakeSettings) (path : String) (s : σ),
        ((sampleMap sampleText).bakeGraph settings path σ host).run.run s =
          ((sampleMap samplePacked).bakeGraph settings path σ host).run.run s := by
  obtain ⟨hdecode, hbake⟩ := bake_eq_of_resaved
  refine ⟨hdecode _ _ 2 1 sampleText_encodes rfl (by decide),
    hdecode _ _ 2 1 samplePacked_encodes rfl (by decide), ?_⟩
  intro σ host settings path s
  exact (hbake _ _ sampleMap_resaved σ host settings path s).2.1

end ResavedMap

end TileKiln
