import TileKiln.Host.Memory
import TileKiln.Proofs.CompiledMap
import TileKiln.Proofs.MapRoundTrip

namespace TileKiln

theorem GidRange.Addressable.perm {ranges ranges' : List GidRange} (h : Addressable ranges)
    (hperm : ranges'.Perm ranges) : Addressable ranges' where
  positive range hrange := h.positive range (hperm.mem_iff.1 hrange)
  below range hrange := h.below range (hperm.mem_iff.1 hrange)
  apart := h.apart.perm hperm.symm Apart.symm

namespace Baked

def Tileset.range (tileset : Tileset) : GidRange := ⟨tileset.firstGid, tileset.tileCount⟩

theorem Tileset.owns_iff (tileset : Tileset) (id : UInt32) :
    tileset.owns id ↔ tileset.range.Has id := by
  simp only [owns, Bool.and_eq_true, decide_eq_true_eq, GidRange.Has, range,
    UInt32.le_iff_toNat_le, UInt32.lt_iff_toNat_lt]
  constructor
  · rintro ⟨hfirst, hcount⟩
    rw [UInt32.toNat_sub_of_le _ _ hfirst] at hcount
    omega
  · rintro ⟨hfirst, hcount⟩
    rw [UInt32.toNat_sub_of_le _ _ hfirst]
    omega

namespace Map

variable {m : Map} {gid : UInt32}

theorem has_injective (hm : GidRange.Addressable (m.tilesets.map Tileset.range)) {i j : Nat}
    (hi : i < m.tilesets.length) (hj : j < m.tilesets.length) {id : UInt32}
    (hhas : m.tilesets[i].range.Has id) (hhas' : m.tilesets[j].range.Has id) : j = i := by
  have hapart := List.pairwise_iff_getElem.1 (List.pairwise_map.1 hm.apart)
  rcases Nat.lt_trichotomy i j with hlt | heq | hlt
  · exact absurd hhas' (hapart i j hi hj hlt id hhas)
  · exact heq.symm
  · exact absurd hhas (hapart j i hj hi hlt id hhas')

theorem owner?_eq_none_iff :
    m.owner? gid = none ↔ ∀ t ∈ m.tilesets, ¬ t.range.Has (Gid.tile gid) := by
  simp only [owner?, List.find?_eq_none, Tileset.owns_iff]

theorem has_of_owner? {t : Tileset} (h : m.owner? gid = some t) :
    t ∈ m.tilesets ∧ t.range.Has (Gid.tile gid) := by
  rw [owner?] at h
  have howns := List.find?_some h
  exact ⟨List.mem_of_find?_eq_some h, (t.owns_iff _).1 (by simpa using howns)⟩

theorem owner?_eq_some (hm : GidRange.Addressable (m.tilesets.map Tileset.range)) {t : Tileset}
    (ht : t ∈ m.tilesets) (hhas : t.range.Has (Gid.tile gid)) : m.owner? gid = some t := by
  cases howner : m.owner? gid with
  | none => exact absurd hhas (owner?_eq_none_iff.1 howner t ht)
  | some t' =>
      obtain ⟨ht', hhas'⟩ := has_of_owner? howner
      obtain ⟨i, hi, rfl⟩ := List.getElem_of_mem ht
      obtain ⟨j, hj, rfl⟩ := List.getElem_of_mem ht'
      obtain rfl := has_injective hm hi hj hhas hhas'
      rfl

theorem owner?_perm (hm : GidRange.Addressable (m.tilesets.map Tileset.range))
    {tilesets : List Tileset} (hperm : tilesets.Perm m.tilesets) :
    ({ m with tilesets } : Map).owner? gid = m.owner? gid := by
  cases howner : m.owner? gid with
  | none =>
      rw [owner?_eq_none_iff] at howner ⊢
      exact fun t ht => howner t (hperm.mem_iff.1 ht)
  | some t =>
      obtain ⟨ht, hhas⟩ := has_of_owner? howner
      exact owner?_eq_some (hm.perm (hperm.map _)) (hperm.mem_iff.2 ht) hhas

theorem not_has_zero (hm : GidRange.Addressable (m.tilesets.map Tileset.range)) {t : Tileset}
    (ht : t ∈ m.tilesets) : ¬ t.range.Has 0 := by
  have hfirst := hm.positive _ (List.mem_map_of_mem ht)
  intro h
  exact hfirst (UInt32.toNat_inj.1 (Nat.le_zero.1 h.1))

theorem addressable_of_compileMap {σ : Type} {host : Host σ} {settings : BakeSettings}
    {document path : String} {stream : List UInt8} {s s' : σ} (hsettings : settings.checkRanges = true)
    (hcompile : (compileMap host settings document path).run.run s = (.ok stream, s'))
    (hread : Map.read stream = .ok m) : GidRange.Addressable (m.tilesets.map Tileset.range) := by
  obtain ⟨parsed, assembled, hparse, hassemble, hwrite⟩ := of_compileMap hcompile
  obtain ⟨_, _, _, stages⟩ := Assembly.stages_of_assemble hassemble
  have haddressable := stages.addressable hsettings (Map.firstGids_of_parse hparse)
  rw [eq_baked_of_read stages.isLoaded hwrite hread, TileKiln.Map.baked, List.map_map]
  exact haddressable

/-- The global id of a tile is the sum of the first id and the tile's own, and no flag. -/
theorem gid_of_addressable (hm : GidRange.Addressable (m.tilesets.map Tileset.range)) {t : Tileset}
    (ht : t ∈ m.tilesets) {id : UInt32} (hid : id < t.tileCount) :
    (t.firstGid + id).toNat = t.firstGid.toNat + id.toNat ∧
      (t.firstGid + id).toNat ≤ Gid.mask.toNat ∧ t.range.Has (t.firstGid + id) := by
  have hbelow : t.firstGid.toNat + t.tileCount.toNat ≤ Gid.mask.toNat + 1 :=
    hm.below _ (List.mem_map_of_mem ht)
  have hmask : Gid.mask.toNat + 1 ≤ 2 ^ 32 := by decide
  rw [UInt32.lt_iff_toNat_lt] at hid
  have hsum : (t.firstGid + id).toNat = t.firstGid.toNat + id.toNat := by
    rw [UInt32.toNat_add]
    omega
  refine ⟨hsum, by omega, ?_⟩
  simp only [GidRange.Has, Tileset.range, hsum]
  omega

/-- Tiles of a baked map with checked ranges are addressed without ambiguity: a global id of a tile,
with any flip flags, leads to the tileset of the tile and to no other, wherever that stands; an id
that is in no range leads to none, and so does 0. -/
theorem owner?_of_compileMap {σ : Type} {host : Host σ} {settings : BakeSettings}
    {document path : String} {stream : List UInt8} {s s' : σ} {m : Map}
    (hsettings : settings.checkRanges = true)
    (hcompile : (compileMap host settings document path).run.run s = (.ok stream, s'))
    (hread : Map.read stream = .ok m) :
    (∀ (i : Nat) (hi : i < m.tilesets.length) (id flags : UInt32),
      id < m.tilesets[i].tileCount → flags &&& Gid.flipFlags = flags →
        let gid := m.tilesets[i].firstGid + id
        gid.toNat = m.tilesets[i].firstGid.toNat + id.toNat ∧ gid &&& Gid.flipFlags = 0 ∧
        m.owner? (gid ||| flags) = some m.tilesets[i] ∧
        ∀ (j : Nat) (hj : j < m.tilesets.length),
          m.tilesets[j].owns (Gid.tile (gid ||| flags)) → j = i) ∧
    (∀ (gid : UInt32) (tilesets : List Tileset), tilesets.Perm m.tilesets →
      ({ m with tilesets } : Map).owner? gid = m.owner? gid) ∧
    (∀ gid : UInt32, (∀ t ∈ m.tilesets, ¬ t.range.Has (Gid.tile gid)) → m.owner? gid = none) ∧
    ∀ gid : UInt32, Gid.tile gid = 0 → m.owner? gid = none := by
  have hm := addressable_of_compileMap hsettings hcompile hread
  refine ⟨?_, fun gid tilesets hperm => owner?_perm hm hperm,
    fun gid hnone => owner?_eq_none_iff.2 hnone, ?_⟩
  · intro i hi id flags hid hflags gid
    obtain ⟨hsum, hmask, hhas⟩ := gid_of_addressable hm (List.getElem_mem hi) hid
    have htile : Gid.tile (gid ||| flags) = gid := by
      rw [Gid.tile_or gid hflags, Gid.tile_of_le hmask]
    refine ⟨hsum, Gid.flips_of_le hmask, ?_, ?_⟩
    · apply owner?_eq_some hm (List.getElem_mem hi)
      rwa [htile]
    · intro j hj howns
      rw [htile, Tileset.owns_iff] at howns
      exact has_injective hm hi hj hhas howns
  · intro gid hzero
    rw [owner?_eq_none_iff, hzero]
    exact fun t ht => not_has_zero hm ht

def sampleDocument : String := "<map><tileset firstgid=\"3\" source=\"cave.tsx\"/></map>"

def sampleLibrary : Library where
  documents := [("cave.tsx", "<tileset tilecount=\"4\"/>")]

def sampleStream? : Except BakeError (List UInt8) :=
  ((compileMap sampleLibrary.plain {} sampleDocument "cave.tmx").run.run ()).1

def sampleRanges? : Option (List GidRange) := do
  let stream ← sampleStream?.toOption
  let m ← (Map.read stream).toOption
  return m.tilesets.map Tileset.range

theorem sampleRanges?_eq : sampleRanges? = some [⟨3, 4⟩] := by decide +kernel

/-- The third of the tiles, flipped, and two ids without a tile. -/
theorem owner?_of_compileMap_sample :
    ∃ stream m t, (compileMap sampleLibrary.plain {} sampleDocument "cave.tmx").run.run () =
        (.ok stream, ()) ∧
      Map.read stream = .ok m ∧ m.tilesets = [t] ∧ t.range = ⟨3, 4⟩ ∧
      m.owner? (5 ||| 0x80000000) = some t ∧ m.owner? 2 = none ∧ m.owner? 0x40000000 = none := by
  obtain ⟨stream, hstream, hranges⟩ := Option.bind_eq_some_iff.1 sampleRanges?_eq
  obtain ⟨m, hm, hranges⟩ := Option.bind_eq_some_iff.1 hranges
  have hcompile : (compileMap sampleLibrary.plain {} sampleDocument "cave.tmx").run.run () =
      (.ok stream, ()) := Prod.ext (ok_of_toOption hstream) rfl
  have hread := ok_of_toOption hm
  obtain ⟨t, htilesets, hrange⟩ : ∃ t, m.tilesets = [t] ∧ t.range = ⟨3, 4⟩ :=
    List.map_eq_singleton_iff.1 (Option.some.inj hranges)
  have hsettings : ({} : BakeSettings).checkRanges = true := rfl
  obtain ⟨hown, _, hnone, hzero⟩ := owner?_of_compileMap hsettings hcompile hread
  refine ⟨stream, m, t, hcompile, hread, htilesets, hrange, ?_, ?_, ?_⟩
  · have hcount : t.tileCount = 4 := congrArg GidRange.count hrange
    have hfirst : t.firstGid = 3 := congrArg GidRange.first hrange
    have hthird := (hown 0 (by simp [htilesets]) 2 0x80000000 (by simp [htilesets, hcount]) rfl).2.2.1
    simpa [htilesets, hfirst] using hthird
  · apply hnone
    intro t' ht'
    rw [htilesets] at ht'
    rw [List.mem_singleton.1 ht', hrange]
    decide
  · exact hzero _ (by decide)

end Map

end Baked

end TileKiln
