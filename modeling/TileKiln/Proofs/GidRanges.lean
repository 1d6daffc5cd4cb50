import Mathlib.Data.List.Chain
import TileKiln.Assembly.GidSpace
import TileKiln.Proofs.Success

namespace TileKiln

namespace Gid

theorem tile_of_le {id : UInt32} (h : id.toNat ≤ mask.toNat) : tile id = id := by
  have hmask : mask.toNat = 2 ^ 28 - 1 := rfl
  apply UInt32.toNat_inj.1
  rw [hmask] at h
  rw [tile, UInt32.toNat_and, hmask, Nat.and_two_pow_sub_one_eq_mod, Nat.mod_eq_of_lt (by omega)]

theorem flips_of_le {id : UInt32} (h : id.toNat ≤ mask.toNat) : flips id = 0 := by
  have hdisjoint : mask &&& flipFlags = 0 := by decide
  rw [← tile_of_le h, flips, tile, UInt32.and_assoc, hdisjoint, UInt32.and_zero]

/-- Flip flags do not change the tile. -/
theorem tile_or {f : UInt32} (id : UInt32) (hf : f &&& flipFlags = f) :
    tile (id ||| f) = tile id := by
  have hdisjoint : flipFlags &&& mask = 0 := by decide
  have hflags : f &&& mask = 0 := by rw [← hf, UInt32.and_assoc, hdisjoint, UInt32.and_zero]
  apply UInt32.toNat_inj.1
  rw [tile, tile, UInt32.toNat_and, UInt32.toNat_or, Nat.and_or_distrib_right, ← UInt32.toNat_and,
    ← UInt32.toNat_and, hflags, UInt32.toNat_zero, Nat.or_zero]

theorem flips_or {id f : UInt32} (h : id.toNat ≤ mask.toNat) (hf : f &&& flipFlags = f) :
    flips (id ||| f) = f := by
  have hid : id &&& flipFlags = 0 := flips_of_le h
  apply UInt32.toNat_inj.1
  rw [flips, UInt32.toNat_and, UInt32.toNat_or, Nat.and_or_distrib_right, ← UInt32.toNat_and,
    ← UInt32.toNat_and, hid, hf, UInt32.toNat_zero, Nat.zero_or]

theorem flips_and (gid : UInt32) : flips gid &&& flipFlags = flips gid := by
  rw [flips, UInt32.and_assoc, UInt32.and_self]

/-- A moved id counts from the first id of the map's tileset as it did from the template's, and keeps
its flip flags. -/
theorem cases_of_remap {firstGids : List (String × UInt32)} {origin : TemplateTileset}
    {gid moved : UInt32} (h : remap firstGids origin gid = .ok moved) (htile : tile gid ≠ 0) :
    ∃ first, firstGids.lookup origin.source = some first ∧ origin.firstGid ≤ tile gid ∧
      (tile moved).toNat = first.toNat + (tile gid - origin.firstGid).toNat ∧
      flips moved = flips gid := by
  simp only [remap, if_neg htile] at h
  split at h
  next => cases h
  next first hfirst =>
    split at h
    next => cases h
    next hbelow =>
      split at h
      next => cases h
      next hmask =>
        cases h
        have hsize : mask.toNat < UInt32.size := by decide
        have hmoved := UInt32.toNat_ofNat_of_lt' (lt_of_le_of_lt (Nat.not_lt.1 hmask) hsize)
        have hle : (UInt32.ofNat (first.toNat + (tile gid - origin.firstGid).toNat)).toNat ≤
            mask.toNat := by
          rw [hmoved]
          exact Nat.not_lt.1 hmask
        refine ⟨first, hfirst, UInt32.not_lt.1 hbelow, ?_, flips_or hle (flips_and gid)⟩
        rw [tile_or _ (flips_and gid), tile_of_le hle, hmoved]

end Gid

structure GidRange where
  first : UInt32
  count : UInt32
deriving DecidableEq

namespace GidRange

def Has (range : GidRange) (id : UInt32) : Prop :=
  range.first.toNat ≤ id.toNat ∧ id.toNat < range.first.toNat + range.count.toNat

instance (range : GidRange) (id : UInt32) : Decidable (range.Has id) :=
  inferInstanceAs (Decidable (_ ∧ _))

def Apart (a b : GidRange) : Prop := ∀ id, a.Has id → ¬ b.Has id

theorem Apart.symm {a b : GidRange} (h : a.Apart b) : b.Apart a :=
  fun id hb ha => h id ha hb

structure Addressable (ranges : List GidRange) : Prop where
  positive : ∀ range ∈ ranges, range.first ≠ 0
  below : ∀ range ∈ ranges, range.first.toNat + range.count.toNat ≤ Gid.mask.toNat + 1
  apart : ranges.Pairwise Apart

end GidRange

namespace Tileset

def range (tileset : Tileset) : GidRange := ⟨tileset.firstGid, tileset.tileCount⟩

theorem below_of_checkGids {tileset : Tileset} (h : tileset.checkGids = .ok ()) :
    tileset.range.first.toNat + tileset.range.count.toNat ≤ Gid.mask.toNat + 1 := by
  rw [checkGids] at h
  split at h
  next => cases h
  next hlast =>
    simp only [lastGid, range] at *
    omega

theorem toNat_gidEnd (tileset : Tileset) :
    tileset.gidEnd.toNat =
      min (tileset.firstGid.toNat + tileset.tileCount.toNat) (UInt32.size - 1) := by
  rw [gidEnd, Gid.rangeEnd]
  apply UInt32.toNat_ofNat_of_lt'
  simp only [UInt32.size]
  omega

/-- Whether the ids of one tileset end before another begins; an empty one may begin between. -/
def Precedes (a b : Tileset) : Prop := a.gidEnd ≤ b.firstGid

theorem Precedes.trans {a b c : Tileset} (hab : a.Precedes b) (hbc : b.Precedes c) :
    a.Precedes c := by
  have hb := b.toNat_gidEnd
  have hfirst := b.firstGid.toNat_lt
  simp only [Precedes, UInt32.le_iff_toNat_le, UInt32.size] at *
  omega

instance : Trans Precedes Precedes Precedes := ⟨Precedes.trans⟩

theorem Precedes.apart {a b : Tileset} (h : a.Precedes b) (ha : a.checkGids = .ok ()) :
    a.range.Apart b.range := by
  have hbelow := below_of_checkGids ha
  have hend := a.toNat_gidEnd
  have hmask : Gid.mask.toNat < UInt32.size - 1 := by decide
  intro id hid
  simp only [Precedes, UInt32.le_iff_toNat_le, GidRange.Has, range] at *
  omega

theorem chain_of_checkNeighbours {tilesets : List Tileset} (h : checkNeighbours tilesets = .ok ()) :
    tilesets.IsChain Precedes := by
  induction tilesets with
  | nil => exact .nil
  | cons first rest ih =>
      cases rest with
      | nil => exact .singleton first
      | cons second rest =>
          rw [checkNeighbours] at h
          split at h
          next => cases h
          next hsecond => exact .cons_cons (UInt32.not_lt.1 hsecond) (ih h)

theorem apart_of_checkRanges {tilesets : List Tileset}
    (hgids : ∀ tileset ∈ tilesets, tileset.checkGids = .ok ()) (h : checkRanges tilesets = .ok ()) :
    (tilesets.map range).Pairwise GidRange.Apart := by
  -- Only neighbours are compared; an empty tileset between two others keeps them apart all the same.
  have hchain := chain_of_checkNeighbours h
  have hsorted := List.isChain_iff_pairwise.1 hchain
  have hperm := List.mergeSort_perm tilesets fun a b => decide (a.firstGid ≤ b.firstGid)
  rw [List.pairwise_map]
  refine List.Perm.pairwise hperm (hsorted.imp_of_mem ?_) GidRange.Apart.symm
  intro a b ha _ hab
  exact hab.apart (hgids a (hperm.mem_iff.1 ha))

end Tileset

theorem Map.addressable_of_checkGids {map : Map} (h : map.checkGids true = .ok ())
    (hpositive : ∀ tileset ∈ map.loaded, tileset.firstGid ≠ 0) :
    GidRange.Addressable (map.loaded.map Tileset.range) := by
  obtain ⟨_, hgids, hranges⟩ := ok_of_bind h
  replace hgids := ok_of_forM hgids
  constructor
  · simpa [Tileset.range] using hpositive
  · intro range hrange
    obtain ⟨tileset, htileset, rfl⟩ := List.mem_map.1 hrange
    exact Tileset.below_of_checkGids (hgids tileset htileset)
  · exact Tileset.apart_of_checkRanges hgids hranges

end TileKiln
