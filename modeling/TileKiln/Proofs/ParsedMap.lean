import TileKiln.Document.Map
import TileKiln.Proofs.Success

namespace TileKiln

theorem Xml.parse?_of_tokens {document : String} {rest : List Char} {tokens : List Token} {root : Node}
    (hmark : document.toList.head? ≠ some '\uFEFF')
    (hrest : afterDeclaration? document.toList = some rest) (htokens : tokens? rest = some tokens)
    (hroot : rootOf? [] none tokens = some root) : parse? document = some root := by
  rw [parse?]
  split
  next hdocument => exact absurd (by rw [hdocument]; rfl) hmark
  next =>
    rw [hrest]
    change tokens? rest >>= _ = _
    rw [htokens]
    exact hroot

/-- A document without a byte order mark and without a declaration, read as tokens. -/
def Xml.Reads (document : String) (tokens : List Token) : Prop :=
  document.toList.head? ≠ some '\uFEFF' ∧
    afterDeclaration? document.toList = some document.toList ∧
    tokens? document.toList = some tokens

instance (document : String) (tokens : List Xml.Token) : Decidable (Xml.Reads document tokens) :=
  inferInstanceAs (Decidable (_ ∧ _ ∧ _))

theorem Xml.Reads.parse? {document : String} {tokens : List Token} {root : Node}
    (h : Reads document tokens) (hroot : rootOf? [] none tokens = some root) :
    Xml.parse? document = some root :=
  parse?_of_tokens h.1 h.2.1 h.2.2 hroot

namespace Document

open Xml

variable {dir : String} {node : Node}

theorem word_of_required {name : String} {w : UInt32}
    (h : required Text.word32? node name = .ok w) : word node name = .ok w := by
  obtain ⟨found, hvalue, h⟩ := ok_of_bind h
  rw [word, valueD, hvalue]
  cases found with
  | none => cases h
  | some value => exact h

theorem others_of_tilesetPart {before after : Tileset}
    (h : tilesetPart dir before node = .ok after) :
    ∃ image tiles terrains offset, after = { before with image, tiles, terrains, offset } := by
  rw [tilesetPart] at h
  split at h
  next =>
    obtain ⟨image, _, h⟩ := ok_of_bind h
    cases h
    exact ⟨_, _, _, _, rfl⟩
  next =>
    obtain ⟨x, _, h⟩ := ok_of_bind h
    obtain ⟨y, _, h⟩ := ok_of_bind h
    cases h
    exact ⟨_, _, _, _, rfl⟩
  next =>
    obtain ⟨terrains, _, h⟩ := ok_of_bind h
    cases h
    exact ⟨_, _, _, _, rfl⟩
  next =>
    obtain ⟨tile, _, h⟩ := ok_of_bind h
    cases h
    exact ⟨_, _, _, _, rfl⟩
  next =>
    cases h
    exact ⟨_, _, _, _, rfl⟩

/-- A tileset element says itself where its ids begin, but not from which document it comes. -/
theorem origin_of_tileset {t : Tileset} (h : tileset dir node = .ok t) :
    word node "firstgid" = .ok t.firstGid ∧ t.source = none := by
  obtain ⟨firstGid, hfirst, h⟩ := ok_of_bind h
  obtain ⟨tileWidth, _, h⟩ := ok_of_bind h
  obtain ⟨tileHeight, _, h⟩ := ok_of_bind h
  obtain ⟨spacing, _, h⟩ := ok_of_bind h
  obtain ⟨margin, _, h⟩ := ok_of_bind h
  obtain ⟨columns, _, h⟩ := ok_of_bind h
  obtain ⟨tileCount, _, h⟩ := ok_of_bind h
  obtain ⟨hgid, hsource⟩ : t.firstGid = firstGid ∧ t.source = none := by
    refine foldlM_keeps (P := fun t => t.firstGid = firstGid ∧ t.source = none) ?_ h ⟨rfl, rfl⟩
    intro before child after hpart hbefore
    obtain ⟨image, tiles, terrains, offset, rfl⟩ := others_of_tilesetPart hpart
    exact hbefore
  exact ⟨hgid ▸ hfirst, hsource⟩

theorem cases_of_tilesetEntry {entry : TilesetEntry} (h : tilesetEntry dir node = .ok entry) :
    ∃ firstGid, required Text.word32? node "firstgid" = .ok firstGid ∧ firstGid ≠ 0 ∧
      ((∃ source, entry = .external firstGid source) ∨
        ∃ t, tileset dir node = .ok t ∧ entry = .inline t) := by
  obtain ⟨firstGid, hfirst, h⟩ := ok_of_bind h
  have hpositive : firstGid ≠ 0 := by
    rintro rfl
    split at h <;> cases h
  simp only [if_neg hpositive] at h
  refine ⟨firstGid, hfirst, hpositive, ?_⟩
  split at h
  next source _ =>
    cases h
    exact .inl ⟨_, rfl⟩
  next =>
    obtain ⟨t, ht, h⟩ := ok_of_bind h
    cases h
    exact .inr ⟨t, ht, rfl⟩

theorem firstGid_of_tilesetEntry {entry : TilesetEntry} (h : tilesetEntry dir node = .ok entry) :
    entry.firstGid ≠ 0 := by
  obtain ⟨firstGid, hfirst, hpositive, ⟨source, rfl⟩ | ⟨t, ht, rfl⟩⟩ := cases_of_tilesetEntry h
  · exact hpositive
  · -- The tileset reads its first id by itself, as an attribute that may be missing.
    have hword := word_of_required hfirst
    rw [(origin_of_tileset ht).1] at hword
    cases hword
    exact hpositive

theorem source_of_tilesetEntry {t : Tileset} (h : tilesetEntry dir node = .ok (.inline t)) :
    t.source = none := by
  obtain ⟨firstGid, _, _, ⟨source, hentry⟩ | ⟨t', ht, hentry⟩⟩ := cases_of_tilesetEntry h
  · cases hentry
  · cases hentry
    exact (origin_of_tileset ht).2

theorem entries_of_mapPart {before after : Map} (h : mapPart dir before node = .ok after)
    (hbefore : ∀ entry ∈ before.tilesets, ∃ child, tilesetEntry dir child = .ok entry) :
    ∀ entry ∈ after.tilesets, ∃ child, tilesetEntry dir child = .ok entry := by
  rw [mapPart] at h
  split at h
  next =>
    obtain ⟨entry, hentry, h⟩ := ok_of_bind h
    cases h
    intro entry' hmem
    rcases List.mem_append.1 hmem with hmem | hmem
    · exact hbefore entry' hmem
    · rw [List.mem_singleton.1 hmem]
      exact ⟨node, hentry⟩
  next =>
    obtain ⟨layer, _, h⟩ := ok_of_bind h
    cases h
    exact hbefore

/-- The elements of a map are read one after another into a map without tilesets and layers. -/
theorem fold_of_map {m : Map} (h : map dir node = .ok m) :
    ∃ bare : Map, bare.tilesets = [] ∧ bare.layers = [] ∧
      node.elements.foldlM (mapPart dir) bare = .ok m := by
  obtain ⟨infinite, _, h⟩ := ok_of_bind h
  split at h
  next => cases h
  next =>
    obtain ⟨width, _, h⟩ := ok_of_bind h
    obtain ⟨height, _, h⟩ := ok_of_bind h
    obtain ⟨tileWidth, _, h⟩ := ok_of_bind h
    obtain ⟨tileHeight, _, h⟩ := ok_of_bind h
    obtain ⟨orientation, _, h⟩ := ok_of_bind h
    obtain ⟨order, _, h⟩ := ok_of_bind h
    obtain ⟨background, _, h⟩ := ok_of_bind h
    exact ⟨_, rfl, rfl, h⟩

theorem entries_of_map {m : Map} (h : map dir node = .ok m) :
    ∀ entry ∈ m.tilesets, ∃ child, tilesetEntry dir child = .ok entry := by
  obtain ⟨bare, hnone, _, h⟩ := fold_of_map h
  refine foldlM_keeps
    (P := fun m => ∀ entry ∈ m.tilesets, ∃ child, tilesetEntry dir child = .ok entry) ?_ h ?_
  · intro before child after hpart hbefore
    exact entries_of_mapPart hpart hbefore
  · simp [hnone]

end Document

namespace Map

variable {document path : String} {map : Map}

theorem entries_of_parse (h : parse document path = .ok map) {entry : TilesetEntry}
    (hentry : entry ∈ map.tilesets) :
    ∃ child, Document.tilesetEntry (Path.parent path) child = .ok entry := by
  obtain ⟨root, _, h⟩ := ok_of_bind h
  exact Document.entries_of_map h entry hentry

theorem firstGids_of_parse (h : parse document path = .ok map) :
    ∀ entry ∈ map.tilesets, entry.firstGid ≠ 0 := by
  intro entry hentry
  obtain ⟨child, hchild⟩ := entries_of_parse h hentry
  exact Document.firstGid_of_tilesetEntry hchild

/-- A tileset inside of a map comes from no document of its own. -/
theorem source_of_parse (h : parse document path = .ok map) {t : Tileset}
    (ht : .inline t ∈ map.tilesets) : t.source = none := by
  obtain ⟨child, hchild⟩ := entries_of_parse h ht
  exact Document.source_of_tilesetEntry hchild

end Map

end TileKiln
