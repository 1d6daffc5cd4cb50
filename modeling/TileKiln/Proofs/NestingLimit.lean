import TileKiln.Proofs.CompiledStream

namespace TileKiln

open Baked (maxNesting)

namespace Property

inductive Descends : List Property → List Property → Prop
  | done (ps) : Descends ps []
  | child (ps p chain) (hmem : p ∈ ps) (hrest : Descends p.children chain) :
      Descends ps (p :: chain)

theorem height_eq (p : Property) : p.height = listHeight p.children + 1 := by
  cases p
  rw [height]

theorem Descends.length_le {ps chain : List Property} (h : Descends ps chain) :
    chain.length ≤ listHeight ps := by
  induction h with
  | done ps => exact Nat.zero_le _
  | child ps p chain hmem hrest ih =>
      have hp := listHeight_le_iff.1 (Nat.le_refl _) p hmem
      rw [height_eq] at hp
      exact (Nat.succ_le_succ ih).trans hp

theorem listHeight_le_iff_chains {ps : List Property} {levels : Nat} :
    listHeight ps ≤ levels ↔ ∀ chain, Descends ps chain → chain.length ≤ levels := by
  constructor
  · intro h chain hchain
    exact hchain.length_le.trans h
  · intro h
    rw [listHeight_le_iff]
    intro p hp
    rw [height_eq]
    induction levels generalizing ps p with
    | zero =>
        exact absurd (h [p] (.child ps p [] hp (.done p.children))) (Nat.not_succ_le_zero _)
    | succ levels ih =>
        refine Nat.succ_le_succ (listHeight_le_iff.2 fun child hchild => ?_)
        rw [height_eq]
        refine ih (fun chain hchain => ?_) child hchild
        exact Nat.le_of_succ_le_succ (h (p :: chain) (.child ps p chain hp hchain))

theorem add_listHeight_le_iff_chains {ps : List Property} {depth limit : Nat} :
    depth + listHeight ps ≤ limit ↔
      ∀ chain, Descends ps chain → depth + chain.length ≤ limit := by
  constructor
  · intro h chain hchain
    exact (Nat.add_le_add_left hchain.length_le depth).trans h
  · intro h
    have hdepth : depth ≤ limit := h [] (.done ps)
    rw [Nat.add_comm, ← Nat.le_sub_iff_add_le hdepth, listHeight_le_iff_chains]
    intro chain hchain
    rw [Nat.le_sub_iff_add_le hdepth, Nat.add_comm]
    exact h chain hchain

end Property

namespace Layer

inductive OccursAt : List Layer → Nat → Layer → Prop
  | here (ls l) (hmem : l ∈ ls) : OccursAt ls 0 l
  | inside (ls head members depth l) (hmem : .group head members ∈ ls)
      (hrest : OccursAt members depth l) : OccursAt ls (depth + 1) l

def propertyLists : Layer → List (List Property)
  | .tiles head _ | .image head _ | .group head _ => [head.properties]
  | .objects head items => head.properties :: items.map Object.properties

structure ShallowAlone (depth : Nat) (l : Layer) : Prop where
  properties : ∀ ps ∈ l.propertyLists, depth + Property.listHeight ps ≤ maxNesting
  group : ∀ head members, l = .group head members → depth + 1 ≤ maxNesting

theorem shallow_iff {l : Layer} {depth : Nat} :
    l.Shallow depth ↔ l.ShallowAlone depth ∧
      ∀ head members, l = .group head members → AllShallow (depth + 1) members := by
  have hhead (head : LayerHead) :
      (∀ ps ∈ [head.properties], depth + Property.listHeight ps ≤ maxNesting) ↔
        head.Shallow depth := List.forall_mem_singleton
  cases l with
  | tiles head grid | image head picture =>
      rw [Shallow]
      constructor
      · intro h
        exact ⟨⟨(hhead head).2 h, nofun⟩, nofun⟩
      · intro h
        exact (hhead head).1 h.1.properties
  | objects head items =>
      rw [Shallow]
      constructor
      · intro h
        exact ⟨⟨List.forall_mem_cons.2 ⟨h.1, List.forall_mem_map.2 h.2⟩, nofun⟩, nofun⟩
      · intro h
        have hlists := List.forall_mem_cons.1 h.1.properties
        exact ⟨hlists.1, fun o ho => hlists.2 _ (List.mem_map_of_mem ho)⟩
  | group head members =>
      rw [Shallow]
      constructor
      · rintro ⟨h, hdepth, hmembers⟩
        refine ⟨⟨(hhead head).2 h, fun _ _ _ => hdepth⟩, ?_⟩
        rintro _ _ ⟨⟩
        exact hmembers
      · intro h
        exact ⟨(hhead head).1 h.1.properties, h.1.group head members rfl, h.2 head members rfl⟩

theorem allShallow_iff_forall {ls : List Layer} {depth : Nat} :
    AllShallow depth ls ↔ ∀ l ∈ ls, l.Shallow depth := by
  induction ls with
  | nil => simp [AllShallow]
  | cons l ls ih => rw [AllShallow, ih, List.forall_mem_cons]

theorem OccursAt.shallowAlone {ls : List Layer} {depth below : Nat} {l : Layer}
    (h : OccursAt ls below l) (hshallow : AllShallow depth ls) :
    l.ShallowAlone (depth + below) := by
  induction h generalizing depth with
  | here ls l hmem => exact (shallow_iff.1 (allShallow_iff_forall.1 hshallow l hmem)).1
  | inside ls head members below l hmem _ ih =>
      have hmembers := (shallow_iff.1 (allShallow_iff_forall.1 hshallow _ hmem)).2 head members rfl
      have hdepth : depth + (below + 1) = depth + 1 + below := by omega
      rw [hdepth]
      exact ih hmembers

theorem allShallow_of_occursAt {ls : List Layer} {depth levels : Nat}
    (hlevels : depth + levels = maxNesting)
    (h : ∀ below l, OccursAt ls below l → l.ShallowAlone (depth + below)) :
    AllShallow depth ls := by
  -- The levels that are left run out before the groups do, since no layer is too deep by itself.
  induction levels generalizing ls depth with
  | zero =>
      refine allShallow_iff_forall.2 fun l hl => ?_
      have halone := h 0 l (.here ls l hl)
      refine shallow_iff.2 ⟨halone, fun head members hgroup => ?_⟩
      have hlevel := halone.group head members hgroup
      omega
  | succ levels ih =>
      refine allShallow_iff_forall.2 fun l hl => ?_
      refine shallow_iff.2 ⟨h 0 l (.here ls l hl), ?_⟩
      rintro head members rfl
      refine ih (by omega) fun below l hbelow => ?_
      have hdepth : depth + 1 + below = depth + (below + 1) := by omega
      rw [hdepth]
      exact h (below + 1) l (.inside ls head members below l hl hbelow)

end Layer

namespace Map

/-- The lists of properties in a map, with the number of group layers that are around them. -/
inductive PropertiesAt (map : Map) : Nat → List Property → Prop
  | map : PropertiesAt map 0 map.properties
  | tileset (tileset) (htileset : tileset ∈ map.loaded) : PropertiesAt map 0 tileset.properties
  | tile (tileset tile) (htileset : tileset ∈ map.loaded) (htile : tile ∈ tileset.tiles) :
      PropertiesAt map 0 tile.properties
  | tileObject (tileset tile object) (htileset : tileset ∈ map.loaded)
      (htile : tile ∈ tileset.tiles) (hobject : object ∈ tile.objects) :
      PropertiesAt map 0 object.properties
  | layer (depth l ps) (hlayer : Layer.OccursAt map.layers depth l) (hps : ps ∈ l.propertyLists) :
      PropertiesAt map depth ps

/-- Whether the group layers of a map, and its chains of properties together with the group layers that
are around them, go no deeper than `limit`. -/
structure NestsWithin (map : Map) (limit : Nat) : Prop where
  groups : ∀ depth head members, Layer.OccursAt map.layers depth (.group head members) →
    depth + 1 ≤ limit
  chains : ∀ depth ps chain, map.PropertiesAt depth ps → Property.Descends ps chain →
    depth + chain.length ≤ limit

theorem NestsWithin.of_shallow {map : Map} (h : map.Shallow) : map.NestsWithin maxNesting := by
  have halone depth l (hlayer : Layer.OccursAt map.layers depth l) : l.ShallowAlone depth := by
    have halone := hlayer.shallowAlone h.layers
    rwa [Nat.zero_add] at halone
  constructor
  · intro depth head members hgroup
    exact (halone depth _ hgroup).group head members rfl
  · intro depth ps chain hps
    refine Property.add_listHeight_le_iff_chains.1 ?_ chain
    cases hps with
    | map => exact (Nat.zero_add _).trans_le h.properties
    | tileset tileset htileset =>
        exact (Nat.zero_add _).trans_le (h.tilesets tileset htileset).properties
    | tile tileset tile htileset htile =>
        exact (Nat.zero_add _).trans_le ((h.tilesets tileset htileset).tiles tile htile).properties
    | tileObject tileset tile object htileset htile hobject =>
        exact ((h.tilesets tileset htileset).tiles tile htile).objects object hobject
    | layer _ l _ hlayer hps => exact (halone depth l hlayer).properties ps hps

theorem NestsWithin.shallow {map : Map} (h : map.NestsWithin maxNesting) : map.Shallow := by
  have hlist {depth : Nat} {ps : List Property} (hps : map.PropertiesAt depth ps) :
      depth + Property.listHeight ps ≤ maxNesting :=
    Property.add_listHeight_le_iff_chains.2 fun chain => h.chains depth ps chain hps
  have htop {ps : List Property} (hps : map.PropertiesAt 0 ps) :
      Property.listHeight ps ≤ maxNesting := by
    have := hlist hps
    rwa [Nat.zero_add] at this
  constructor
  · exact htop .map
  · intro tileset htileset
    refine ⟨fun tile htile => ⟨fun object hobject => ?_, ?_⟩, ?_⟩
    · exact hlist (.tileObject tileset tile object htileset htile hobject)
    · exact htop (.tile tileset tile htileset htile)
    · exact htop (.tileset tileset htileset)
  · refine Layer.allShallow_of_occursAt (Nat.zero_add maxNesting) fun depth l hlayer => ?_
    rw [Nat.zero_add]
    refine ⟨fun ps hps => hlist (.layer depth l ps hlayer hps), ?_⟩
    rintro head members rfl
    exact h.groups depth head members hlayer

theorem shallow_iff_nestsWithin {map : Map} : map.Shallow ↔ map.NestsWithin maxNesting :=
  ⟨NestsWithin.of_shallow, NestsWithin.shallow⟩

end Map

/-- A map that has been written is read back as it was if its group layers and its chains of
properties, counted together, go no deeper than readers do, and else it is refused for its nesting. -/
theorem tooDeep_iff_of_write {map : Map} {stream : List UInt8} (hloaded : map.IsLoaded)
    (hstream : Writer.bytes map.write = .ok stream) :
    (map.NestsWithin maxNesting → Baked.Map.read stream = .ok map.baked) ∧
      ((∃ place, Baked.Map.read stream = .error (.tooDeep place)) ↔
        ¬ map.NestsWithin maxNesting) := by
  have hread := Baked.map_readsIfShallow hloaded hstream
  rw [Map.shallow_iff_nestsWithin] at hread
  refine ⟨hread.reads, ?_, hread.tooDeep⟩
  rintro ⟨place, hdeep⟩ hnests
  rw [hread.reads hnests] at hdeep
  cases hdeep

namespace NestedProperties

def chain : (length : Nat) → List Property
  | 0 => []
  | length + 1 => [⟨"p", "", chain length⟩]

def map (length : Nat) : Map where
  layers := [.group {} [.objects {} [{ properties := chain length }]]]

theorem listHeight_chain (length : Nat) : Property.listHeight (chain length) = length := by
  induction length with
  | zero => rfl
  | succ length ih =>
      simp only [chain, Property.listHeight, Property.height, ih]
      omega

theorem chain_fits (length : Nat) : Property.ListFits (chain length) := by
  induction length with
  | zero => exact ⟨by decide, trivial⟩
  | succ length ih =>
      have hone : FitsWord 1 := by decide
      exact ⟨hone, ⟨by decide, by decide, ih⟩, trivial⟩

theorem map_isLoaded (length : Nat) : (map length).IsLoaded := fun _ he => absurd he List.not_mem_nil

theorem map_fits (length : Nat) : (map length).Fits := by
  have hnone : FitsWord 0 := by decide
  have hone : FitsWord 1 := by decide
  have hobject : Object.Fits { properties := chain length } :=
    ⟨nofun, nofun, nofun, nofun, chain_fits length⟩
  have hlayer : Layer.Fits (.objects {} [{ properties := chain length }]) :=
    ⟨⟨hnone, hnone, trivial⟩, hone, List.forall_mem_singleton.2 hobject⟩
  exact ⟨⟨hnone, trivial⟩, hnone, fun _ ht => absurd ht List.not_mem_nil, hone,
    ⟨⟨hnone, hnone, trivial⟩, hone, hlayer, trivial⟩, trivial⟩

theorem map_written (length : Nat) : ∃ stream, Writer.bytes (map length).write = .ok stream :=
  (Baked.map_readsBack (map_isLoaded length)).bytes_of_fits (map_fits length)

theorem map_shallow_iff (length : Nat) : (map length).Shallow ↔ 1 + length ≤ maxNesting := by
  have hlayers : Layer.AllShallow 0 (map length).layers ↔ 1 + length ≤ maxNesting := by
    simp only [map, Layer.AllShallow, Layer.Shallow, LayerHead.Shallow, Object.Shallow,
      Property.listHeight, List.forall_mem_singleton, listHeight_chain, and_true]
    omega
  constructor
  · intro h
    exact hlayers.1 h.layers
  · intro h
    exact ⟨Nat.zero_le _, fun _ ht => absurd ht List.not_mem_nil, hlayers.2 h⟩

theorem objects_occursAt (length : Nat) :
    Layer.OccursAt (map length).layers 1 (.objects {} [{ properties := chain length }]) :=
  .inside _ _ _ _ _ List.mem_cons_self (.here _ _ List.mem_cons_self)

theorem of_occursAt {length depth : Nat} {l : Layer} (h : Layer.OccursAt (map length).layers depth l) :
    depth = 0 ∧ l = .group {} [.objects {} [{ properties := chain length }]] ∨
      depth = 1 ∧ l = .objects {} [{ properties := chain length }] := by
  cases h with
  | here _ _ hmem => exact .inl ⟨rfl, List.mem_singleton.1 hmem⟩
  | inside _ head members below _ hmem hrest =>
      cases List.mem_singleton.1 hmem
      cases hrest with
      | here _ _ hmem => exact .inr ⟨rfl, List.mem_singleton.1 hmem⟩
      | inside _ head members below _ hmem _ => cases List.mem_singleton.1 hmem

theorem listHeight_of_propertiesAt {length depth : Nat} {ps : List Property}
    (h : (map length).PropertiesAt depth ps) : Property.listHeight ps ≤ length := by
  cases h with
  | map => exact Nat.zero_le _
  | tileset tileset htileset => exact absurd htileset List.not_mem_nil
  | tile tileset tile htileset => exact absurd htileset List.not_mem_nil
  | tileObject tileset tile object htileset => exact absurd htileset List.not_mem_nil
  | layer _ l _ hlayer hps =>
      rcases of_occursAt hlayer with ⟨rfl, rfl⟩ | ⟨rfl, rfl⟩
      · cases List.mem_singleton.1 hps
        exact Nat.zero_le _
      · rcases List.mem_pair.1 hps with rfl | rfl
        · exact Nat.zero_le _
        · exact (listHeight_chain length).le

theorem depth_of_group {length depth : Nat} {head : LayerHead} {members : List Layer}
    (h : Layer.OccursAt (map length).layers depth (.group head members)) : depth = 0 := by
  rcases of_occursAt h with ⟨hdepth, _⟩ | ⟨_, hobjects⟩
  · exact hdepth
  · cases hobjects

end NestedProperties

/-- With one group layer around it, a chain of 63 properties is read. -/
theorem tooDeep_iff_of_write_below_group :
    ∃ (map : Map) (stream : List UInt8), map.IsLoaded ∧ Writer.bytes map.write = .ok stream ∧
      Layer.OccursAt map.layers 1 (.objects {} [{ properties := NestedProperties.chain 63 }]) ∧
      Baked.Map.read stream = .ok map.baked := by
  have hloaded := NestedProperties.map_isLoaded 63
  obtain ⟨stream, hstream⟩ := NestedProperties.map_written 63
  have hshallow := (NestedProperties.map_shallow_iff 63).2 (by decide)
  have hnests := Map.shallow_iff_nestsWithin.1 hshallow
  exact ⟨NestedProperties.map 63, stream, hloaded, hstream, NestedProperties.objects_occursAt 63,
    (tooDeep_iff_of_write hloaded hstream).1 hnests⟩

/-- With one group layer around it, a chain of 64 properties is refused, although neither the group
nor the chain goes deeper than 64 levels. -/
theorem tooDeep_below_group :
    ∃ (map : Map) (stream : List UInt8), map.IsLoaded ∧ Writer.bytes map.write = .ok stream ∧
      (∀ depth head members, Layer.OccursAt map.layers depth (.group head members) →
        depth + 1 ≤ 64) ∧
      (∀ depth ps chain, map.PropertiesAt depth ps → Property.Descends ps chain →
        chain.length ≤ 64) ∧
      ∃ place, Baked.Map.read stream = .error (.tooDeep place) := by
  have hloaded := NestedProperties.map_isLoaded 64
  obtain ⟨stream, hstream⟩ := NestedProperties.map_written 64
  have hdeep : ¬ (NestedProperties.map 64).Shallow := by
    rw [NestedProperties.map_shallow_iff]
    decide
  refine ⟨NestedProperties.map 64, stream, hloaded, hstream, ?_, ?_,
    (Baked.map_readsIfShallow hloaded hstream).tooDeep hdeep⟩
  · intro depth head members hgroup
    rw [NestedProperties.depth_of_group hgroup]
    decide
  · intro depth ps chain hps hchain
    exact hchain.length_le.trans (NestedProperties.listHeight_of_propertiesAt hps)

end TileKiln
