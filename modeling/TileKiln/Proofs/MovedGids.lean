import TileKiln.Proofs.TilesetAlone

namespace TileKiln

namespace Gid

variable {firstGids : List (String × UInt32)} {origin : TemplateTileset} {gid first moved : UInt32}

theorem tile_or_flips (gid : UInt32) : tile gid ||| flips gid = gid := by
  have hall : mask.toNat ||| flipFlags.toNat = 2 ^ 32 - 1 := by decide
  apply UInt32.toNat_inj.1
  rw [tile, flips, UInt32.toNat_or, UInt32.toNat_and, UInt32.toNat_and,
    ← Nat.and_or_distrib_left, hall, Nat.and_two_pow_sub_one_eq_mod, Nat.mod_eq_of_lt gid.toNat_lt]

theorem eq_of_tile_of_flips {gid gid' : UInt32} (htile : tile gid = tile gid')
    (hflips : flips gid = flips gid') : gid = gid' := by
  rw [← tile_or_flips gid, htile, hflips, tile_or_flips]

theorem tile_le (gid : UInt32) : (tile gid).toNat ≤ mask.toNat := by
  rw [tile, UInt32.toNat_and]
  exact Nat.and_le_right

/-- A sum of words neither wraps nor reaches the flip flags exactly if it is no larger than the
largest tile part, counted as a number. -/
theorem add_le_mask_iff (a b : UInt32) :
    a.toNat + b.toNat ≤ mask.toNat ↔ a.toNat + b.toNat < UInt32.size ∧ flips (a + b) = 0 := by
  have hsize : mask.toNat < UInt32.size := by decide
  constructor
  · intro h
    have hsum : (a + b).toNat = a.toNat + b.toNat := by
      rw [UInt32.toNat_add, Nat.mod_eq_of_lt (h.trans_lt hsize)]
    exact ⟨h.trans_lt hsize, flips_of_le (hsum ▸ h)⟩
  · rintro ⟨hlt, hflips⟩
    have hsum : (a + b).toNat = a.toNat + b.toNat := by
      rw [UInt32.toNat_add, Nat.mod_eq_of_lt hlt]
    have htile : tile (a + b) = a + b := by
      conv_rhs => rw [← tile_or_flips (a + b), hflips, UInt32.or_zero]
    rw [← hsum, ← htile]
    exact tile_le _

/-- The tile part to which `gid` is moved if the map has the tileset from `first` on, as a number
that may be too large for one. -/
def target (first : UInt32) (origin : TemplateTileset) (gid : UInt32) : Nat :=
  first.toNat + ((tile gid).toNat - origin.firstGid.toNat)

theorem target_eq (first : UInt32) (hle : origin.firstGid ≤ tile gid) :
    target first origin gid = first.toNat + (tile gid - origin.firstGid).toNat := by
  rw [target, UInt32.toNat_sub_of_le _ _ hle]

theorem remap_of_untiled (h : tile gid = 0) : remap firstGids origin gid = .ok gid := by
  rw [remap, if_pos h]

section

variable (htile : tile gid ≠ 0)

include htile

theorem remap_of_absent (h : firstGids.lookup origin.source = none) :
    remap firstGids origin gid = .error (.missing origin.source .tileset) := by
  simp only [remap, if_neg htile, h]

theorem remap_of_below (h : firstGids.lookup origin.source = some first)
    (hbelow : tile gid < origin.firstGid) :
    remap firstGids origin gid = .error (.missing origin.source (.tile (tile gid))) := by
  simp only [remap, if_neg htile, h, if_pos hbelow]

theorem remap_of_beyond (h : firstGids.lookup origin.source = some first)
    (hle : origin.firstGid ≤ tile gid) (hbeyond : mask.toNat < target first origin gid) :
    remap firstGids origin gid =
      .error (.gidOutOfRange origin.source (target first origin gid)) := by
  rw [target_eq first hle] at hbeyond ⊢
  simp only [remap, if_neg htile, h, if_neg (UInt32.not_lt.2 hle), if_pos hbeyond]

theorem remap_of_within (h : firstGids.lookup origin.source = some first)
    (hle : origin.firstGid ≤ tile gid) (hwithin : target first origin gid ≤ mask.toNat) :
    remap firstGids origin gid =
      .ok (first + (tile gid - origin.firstGid) ||| flips gid) := by
  rw [target_eq first hle] at hwithin
  simp only [remap, if_neg htile, h, if_neg (UInt32.not_lt.2 hle), if_neg (Nat.not_lt.2 hwithin),
    UInt32.ofNat_add, UInt32.ofNat_toNat]

theorem remap_ok_iff :
    remap firstGids origin gid = .ok moved ↔
      ∃ first, firstGids.lookup origin.source = some first ∧ origin.firstGid ≤ tile gid ∧
        target first origin gid ≤ mask.toNat ∧
        moved = first + (tile gid - origin.firstGid) ||| flips gid := by
  constructor
  · intro h
    cases hfirst : firstGids.lookup origin.source with
    | none =>
        rw [remap_of_absent htile hfirst] at h
        cases h
    | some first =>
        rcases UInt32.lt_or_le (tile gid) origin.firstGid with hbelow | hle
        · rw [remap_of_below htile hfirst hbelow] at h
          cases h
        · rcases Nat.lt_or_ge mask.toNat (target first origin gid) with hbeyond | hwithin
          · rw [remap_of_beyond htile hfirst hle hbeyond] at h
            cases h
          · rw [remap_of_within htile hfirst hle hwithin] at h
            cases h
            exact ⟨first, rfl, hle, hwithin, rfl⟩
  · rintro ⟨first, hfirst, hle, hwithin, rfl⟩
    exact remap_of_within htile hfirst hle hwithin

end

theorem shift_of_remap (htile : tile gid ≠ 0) (hfirst : firstGids.lookup origin.source = some first)
    (h : remap firstGids origin gid = .ok moved) :
    origin.firstGid ≤ tile gid ∧ (tile moved).toNat = target first origin gid ∧
      flips moved = flips gid := by
  obtain ⟨found, hfound, hle, hmoved, hflips⟩ := cases_of_remap h htile
  rw [hfirst] at hfound
  cases hfound
  exact ⟨hle, hmoved.trans (target_eq first hle).symm, hflips⟩

theorem remap_injective {gid' : UInt32} (htile : tile gid ≠ 0) (htile' : tile gid' ≠ 0)
    (h : remap firstGids origin gid = .ok moved) (h' : remap firstGids origin gid' = .ok moved) :
    gid = gid' := by
  obtain ⟨first, hfirst, _⟩ := (remap_ok_iff htile).1 h
  obtain ⟨hle, htarget, hflips⟩ := shift_of_remap htile hfirst h
  obtain ⟨hle', htarget', hflips'⟩ := shift_of_remap htile' hfirst h'
  rw [UInt32.le_iff_toNat_le] at hle hle'
  refine eq_of_tile_of_flips (UInt32.toNat_inj.1 ?_) (hflips.symm.trans hflips')
  rw [htarget, target, target] at htarget'
  omega

/-- What was moved is moved back by exchanging the two places where the tileset begins, unless the
map has it from 0 on, where its first tile would be none. -/
theorem remap_of_remap (hfirst : firstGids.lookup origin.source = some first) (hzero : first ≠ 0)
    (h : remap firstGids origin gid = .ok moved) {back : List (String × UInt32)}
    (hback : back.lookup origin.source = some origin.firstGid) :
    remap back ⟨first, origin.source⟩ moved = .ok gid := by
  by_cases htile : tile gid = 0
  · rw [remap_of_untiled htile] at h
    cases h
    exact remap_of_untiled htile
  · obtain ⟨hle, htarget, hflips⟩ := shift_of_remap htile hfirst h
    rw [target_eq first hle] at htarget
    have hpositive : first.toNat ≠ 0 := fun heq => hzero (UInt32.toNat_inj.1 heq)
    have hmoved : tile moved ≠ 0 := by
      intro heq
      rw [heq, UInt32.toNat_zero] at htarget
      omega
    have hfirst_le : first ≤ tile moved := by
      rw [UInt32.le_iff_toNat_le]
      omega
    have hdistance : tile moved - first = tile gid - origin.firstGid := by
      apply UInt32.toNat_inj.1
      rw [UInt32.toNat_sub_of_le _ _ hfirst_le]
      omega
    have hsum : origin.firstGid + (tile gid - origin.firstGid) = tile gid := by
      rw [UInt32.add_comm, UInt32.sub_add_cancel]
    have hwithin : target origin.firstGid ⟨first, origin.source⟩ moved ≤ mask.toNat := by
      have hbound := tile_le gid
      rw [UInt32.le_iff_toNat_le] at hle
      rw [target_eq _ hfirst_le]
      change _ + (tile moved - first).toNat ≤ _
      rw [hdistance, UInt32.toNat_sub_of_le _ _ hle]
      omega
    have hremap : remap back ⟨first, origin.source⟩ moved =
        .ok (origin.firstGid + (tile moved - first) ||| flips moved) :=
      remap_of_within hmoved hback hfirst_le hwithin
    rw [hremap, hdistance, hsum, hflips, tile_or_flips]

end Gid

/-- A map that has been parsed has no tileset from 0 on, and none that it has loaded. -/
theorem Map.firstGids_ne_zero {σ : Type} {host : Host σ} {document path source : String}
    {parsed loaded : Map} {first : UInt32} (hparse : Map.parse document path = .ok parsed)
    (hload : (Assembly.loadAll host parsed).Yields loaded)
    (hfirst : loaded.firstGids.lookup source = some first) : first ≠ 0 := by
  obtain ⟨_, hentries, rfl⟩ := hload.of_part
  obtain ⟨tilesets, rfl, hloads⟩ := Assembly.tilesets_of_each_load hentries
  have hpositive := Assembly.firstGid_of_loads hloads (Map.firstGids_of_parse hparse)
  obtain ⟨front, back, hlist, _⟩ := List.lookup_eq_some_iff.1 hfirst
  have hmem : (source, first) ∈ Map.firstGids { parsed with tilesets := tilesets.map .inline } := by
    rw [hlist]
    simp
  rw [Map.firstGids, Assembly.loaded_of_inline rfl] at hmem
  obtain ⟨t, ht, hown⟩ := List.mem_filterMap.1 hmem
  obtain ⟨own, _, hown⟩ := Option.map_eq_some_iff.1 hown
  cases hown
  exact hpositive t ht

structure Gid.Shifts (firstGids : List (String × UInt32)) (origin : TemplateTileset) (gid : UInt32) :
    Prop where
  untiled : tile gid = 0 → remap firstGids origin gid = .ok gid
  moves_iff : tile gid ≠ 0 → ((∃ moved, remap firstGids origin gid = .ok moved) ↔
    ∃ first, firstGids.lookup origin.source = some first ∧ origin.firstGid ≤ tile gid ∧
      target first origin gid ≤ mask.toNat)
  moved : tile gid ≠ 0 → ∀ first moved, firstGids.lookup origin.source = some first →
    remap firstGids origin gid = .ok moved →
      flips moved = flips gid ∧ (tile moved).toNat = target first origin gid
  absent : tile gid ≠ 0 → firstGids.lookup origin.source = none →
    remap firstGids origin gid = .error (.missing origin.source .tileset)
  below : tile gid ≠ 0 → ∀ first, firstGids.lookup origin.source = some first →
    tile gid < origin.firstGid →
      remap firstGids origin gid = .error (.missing origin.source (.tile (tile gid)))
  beyond : tile gid ≠ 0 → ∀ first, firstGids.lookup origin.source = some first →
    origin.firstGid ≤ tile gid → mask.toNat < target first origin gid →
      remap firstGids origin gid = .error (.gidOutOfRange origin.source (target first origin gid))
  limit : ∀ first, origin.firstGid ≤ tile gid → (target first origin gid ≤ mask.toNat ↔
    target first origin gid < UInt32.size ∧ flips (first + (tile gid - origin.firstGid)) = 0)

theorem Gid.shifts (firstGids : List (String × UInt32)) (origin : TemplateTileset) (gid : UInt32) :
    Shifts firstGids origin gid where
  untiled := remap_of_untiled
  moves_iff htile := by
    simp only [remap_ok_iff htile]
    constructor
    · rintro ⟨moved, first, hfirst, hle, hwithin, _⟩
      exact ⟨first, hfirst, hle, hwithin⟩
    · rintro ⟨first, hfirst, hle, hwithin⟩
      exact ⟨_, first, hfirst, hle, hwithin, rfl⟩
  moved htile first moved hfirst h :=
    let ⟨_, htarget, hflips⟩ := shift_of_remap htile hfirst h
    ⟨hflips, htarget⟩
  absent htile := remap_of_absent htile
  below htile _ := remap_of_below htile
  beyond htile _ := remap_of_beyond htile
  limit first hle := by
    rw [target_eq first hle]
    exact add_le_mask_iff first (tile gid - origin.firstGid)

/-- An id with a tile is moved by the distance between the two places where its tileset begins, if the
map has the tileset, the id is one of its ids and the sum, counted without bounds, is no larger than
the largest tile part; the flip flags stay. Each other case has its error. No two ids are moved to
one, and moving back restores the id, as no map has a tileset from 0 on. -/
theorem Gid.remap_shifts (firstGids : List (String × UInt32)) (origin : TemplateTileset)
    (gid : UInt32) :
    Shifts firstGids origin gid ∧
    (∀ gid' moved, tile gid ≠ 0 → tile gid' ≠ 0 → gid ≠ gid' →
      remap firstGids origin gid = .ok moved → remap firstGids origin gid' ≠ .ok moved) ∧
    (∀ first moved, firstGids.lookup origin.source = some first → first ≠ 0 →
      remap firstGids origin gid = .ok moved → ∀ back : List (String × UInt32),
        back.lookup origin.source = some origin.firstGid →
          remap back ⟨first, origin.source⟩ moved = .ok gid) ∧
    ∀ {σ : Type} (host : Host σ) (document path : String) (parsed loaded : Map),
      Map.parse document path = .ok parsed → (Assembly.loadAll host parsed).Yields loaded →
        ∀ source first, loaded.firstGids.lookup source = some first → first ≠ 0 := by
  refine ⟨shifts firstGids origin gid, ?_, ?_, ?_⟩
  · intro gid' moved htile htile' hne h h'
    exact hne (remap_injective htile htile' h h')
  · intro first moved hfirst hzero h back hback
    exact remap_of_remap hfirst hzero h hback
  · intro σ host document path parsed loaded hparse hload source first hfirst
    exact Map.firstGids_ne_zero hparse hload hfirst

/-- A flipped tile of the cave, moved to where the level has the cave and back, and the same tile for
a map in which it lies just beyond the last id. -/
theorem GemCave.remap_shifts_sample :
    Map.parse levelDocument "level.tmx" = .ok level ∧
    (Assembly.loadAll sampleTree.host level).Yields loadedLevel ∧
    (∃ moved, Gid.remap loadedLevel.firstGids ⟨1, "cave.tsx"⟩ 0x80000002 = .ok moved ∧
      Gid.flips moved = 0x80000000 ∧ (Gid.tile moved).toNat = 4 ∧
      Gid.remap [("cave.tsx", 1)] ⟨3, "cave.tsx"⟩ moved = .ok 0x80000002) ∧
    Gid.remap [("cave.tsx", 0x0FFFFFFF)] ⟨1, "cave.tsx"⟩ 0x80000002 =
      .error (.gidOutOfRange "cave.tsx" 0x10000000) := by
  have hload : (Assembly.loadAll sampleTree.host level).Yields loadedLevel := .of_eq loadAll_level
  have hfirst : loadedLevel.firstGids.lookup "cave.tsx" = some 3 := by decide
  obtain ⟨hshifts, _, hback, hpositive⟩ :=
    Gid.remap_shifts loadedLevel.firstGids ⟨1, "cave.tsx"⟩ 0x80000002
  obtain ⟨moved, hmoved⟩ := (hshifts.moves_iff (by decide)).2 ⟨3, hfirst, by decide, by decide⟩
  obtain ⟨hflips, htile⟩ := hshifts.moved (by decide) 3 moved hfirst hmoved
  have hzero := hpositive _ _ _ _ _ parse_level hload "cave.tsx" 3 hfirst
  refine ⟨parse_level, hload, ⟨moved, hmoved, hflips, htile, hback 3 moved hfirst hzero hmoved _ rfl⟩,
    ?_⟩
  exact (Gid.remap_shifts [("cave.tsx", 0x0FFFFFFF)] ⟨1, "cave.tsx"⟩ 0x80000002).1.beyond
    (by decide) 0x0FFFFFFF rfl (by decide) (by decide)

end TileKiln
