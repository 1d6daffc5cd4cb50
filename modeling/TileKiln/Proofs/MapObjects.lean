import TileKiln.Baked.Image
import TileKiln.Proofs.Parts
import TileKiln.Proofs.StreamLimits

namespace TileKiln

def Map.objects (map : Map) : List Object :=
  map.parts.filterMap Part.object?

namespace Baked

mutual

def Layer.allObjects : Layer → List Object
  | .objects _ items => items
  | .group _ members => Layer.objectsAmong members
  | .tiles .. | .image .. => []

def Layer.objectsAmong : List Layer → List Object
  | [] => []
  | l :: ls => l.allObjects ++ Layer.objectsAmong ls

end

def Map.objects (m : Map) : List Object :=
  m.tilesets.flatMap (fun t => t.tiles.flatMap Tile.objects) ++ Layer.objectsAmong m.layers

end Baked

theorem objects_ofImage (image : Option Image) :
    (Part.ofImage image).filterMap Part.object? = [] := by
  cases image <;> rfl

theorem objects_map_object (items : List Object) :
    (items.map Part.object).filterMap Part.object? = items := by
  rw [List.filterMap_map]
  exact List.filterMap_some

theorem Tile.objects_parts (t : Tile) : t.parts.filterMap Part.object? = t.objects := by
  rw [Tile.parts, List.filterMap_append, objects_ofImage, objects_map_object, List.nil_append]

theorem Tileset.objects_baked (t : Tileset) :
    t.baked.tiles.flatMap Baked.Tile.objects =
      (t.parts.filterMap Part.object?).map Object.baked := by
  rw [Tileset.parts, List.filterMap_append, objects_ofImage, List.nil_append]
  change (t.tiles.map Tile.baked).flatMap Baked.Tile.objects = _
  induction t.tiles with
  | nil => rfl
  | cons tile tiles ih =>
      rw [List.map_cons, List.flatMap_cons, ih, List.flatMap_cons, List.filterMap_append,
        List.map_append, tile.objects_parts]
      rfl

mutual

theorem Layer.objects_baked : (l : Layer) →
    l.baked.allObjects = (l.parts.filterMap Part.object?).map Object.baked
  | .tiles head grid => rfl
  | .image head picture => by
      rw [Layer.parts, objects_ofImage]
      rfl
  | .objects head items => by
      rw [Layer.parts, objects_map_object]
      rfl
  | .group head members => by
      rw [Layer.parts, ← Layer.objects_bakedAll members]
      rfl

theorem Layer.objects_bakedAll : (ls : List Layer) →
    Baked.Layer.objectsAmong (Layer.bakedAll ls) =
      ((Layer.partsAmong ls).filterMap Part.object?).map Object.baked
  | [] => rfl
  | l :: ls => by
      rw [Layer.partsAmong, List.filterMap_append, List.map_append, ← Layer.objects_baked l,
        ← Layer.objects_bakedAll ls]
      rfl

end

theorem Map.objects_baked {map : Map} (h : map.IsLoaded) :
    map.baked.objects = map.objects.map Object.baked := by
  have htilesets : (map.loaded.map Tileset.baked).flatMap
      (fun t => t.tiles.flatMap Baked.Tile.objects) =
        ((map.loaded.flatMap Tileset.parts).filterMap Part.object?).map Object.baked := by
    induction map.loaded with
    | nil => rfl
    | cons t ts ih =>
        rw [List.map_cons, List.flatMap_cons, ih, List.flatMap_cons, List.filterMap_append,
          List.map_append, t.objects_baked]
  rw [Map.objects, parts_of_inline h.tilesets_eq, List.filterMap_append, List.map_append,
    ← htilesets, ← Layer.objects_bakedAll]
  rfl

/-- An object, the templates it goes through, and the object it is in the end. -/
structure Instance where
  object : Object
  chain : Object.TemplateChain
  resolved : Object

theorem Object.TemplateChain.templates_calls (chain : Object.TemplateChain) :
    chain.calls.filterMap Call.template? = chain := by
  induction chain with
  | nil => rfl
  | cons link chain ih =>
      obtain ⟨reference, template⟩ := link
      have hfirst : (template.calls reference).filterMap Call.template? =
          [(reference, template)] := by
        rw [Template.calls]
        split <;> rfl
      rw [Object.TemplateChain.calls, List.flatMap_cons, List.filterMap_append, hfirst]
      exact congrArg ((reference, template) :: ·) ih

theorem Account.exists_instances {firstGids : List (String × UInt32)} {parts parts' : List Part}
    {calls : List Call} (h : Account firstGids parts calls parts') :
    ∃ instances : List Instance, instances.map (·.object) = parts.filterMap Part.object? ∧
      instances.flatMap (·.chain) = calls.filterMap Call.template? ∧
      instances.map (·.resolved) = parts'.filterMap Part.object? ∧
      ∀ i ∈ instances, i.object.Inherits firstGids i.chain i.resolved := by
  induction h with
  | nil => exact ⟨[], rfl, rfl, rfl, by simp⟩
  | image source answer _ _ _ _ ih => exact ih
  | log level message _ _ _ _ ih => exact ih
  | object object chain resolved _ _ _ hobject _ ih =>
      obtain ⟨instances, hbefore, hcalls, hafter, hinherits⟩ := ih
      refine ⟨⟨object, chain, resolved⟩ :: instances, congrArg (object :: ·) hbefore, ?_,
        congrArg (resolved :: ·) hafter, ?_⟩
      · rw [List.flatMap_cons, hcalls, List.filterMap_append, chain.templates_calls]
      · rw [List.forall_mem_cons]
        exact ⟨hobject, hinherits⟩

end TileKiln
