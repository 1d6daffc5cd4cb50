import TileKiln.Proofs.Canonical

namespace TileKiln.Baked

variable {α : Type}

/-- What becomes of a stream that is read, if a part of it is missing at its end or if more follows. -/
structure SelfDelimiting (read : List UInt8 → Except ReadError α) (stream : List UInt8) : Prop where
  cut : ∀ front, front <+: stream → front ≠ stream →
    ∃ place ≤ front.length, read front = .error (.unexpectedEnd place)
  followed : ∀ more, more ≠ [] → read (stream ++ more) = .error (.trailingBytes more.length)

theorem ReadError.Shows.place_le {bytes : List UInt8} {place offset : Nat}
    (h : Shows (.unexpectedEnd place) offset bytes) : place ≤ offset + bytes.length := by
  cases h with
  | unexpectedEnd front back => rw [List.length_append]; omega

namespace Reader

variable {read : Reader α} {told : α → List UInt8 → Prop} {stream : List UInt8} {a : α}

theorem Exact.selfDelimiting (h : read.Exact told) (hrun : read.run stream = .ok a) :
    SelfDelimiting read.run stream := by
  obtain ⟨_, hgives⟩ := h.of_run hrun
  constructor
  · rintro front ⟨missing, rfl⟩ hne
    have hmissing : missing ≠ [] := by
      rintro rfl
      exact hne (List.append_nil front).symm
    have hwhole := hgives.run_eq [] 0
    rw [List.append_nil] at hwhole
    cases hread : read ⟨front, 0⟩ with
    | ok result =>
        -- Then the whole stream would leave the missing bytes unread.
        obtain ⟨b, cursor⟩ := result
        obtain ⟨taken, htaken, _, hfront⟩ := h.takes hread
        have hlonger := hfront.run_eq (cursor.rest ++ missing) 0
        rw [← List.append_assoc, ← htaken, hwhole] at hlonger
        obtain ⟨_, hcursor⟩ := Prod.ext_iff.1 (Except.ok.inj hlonger)
        have hrest : [] = cursor.rest ++ missing := congrArg Cursor.rest hcursor
        exact absurd (List.append_eq_nil_iff.1 hrest.symm).2 hmissing
    | error e =>
        obtain ⟨hshows, ⟨place, rfl⟩ | hstands⟩ := h.refuses hread
        · refine ⟨place, ?_, by rw [run, hread]⟩
          rw [← Nat.zero_add front.length]
          exact hshows.place_le
        · rw [hstands missing] at hwhole
          cases hwhole
  · intro more hmore
    rw [run, hgives.run_eq]
    exact if_neg (by simpa using hmore)

end Reader

/-- Whatever byte a stream is cut at, and whatever stands behind it, the reader notices. -/
theorem selfDelimiting_of_read :
    (∀ (stream : List UInt8) (m : Map), Map.read stream = .ok m →
      SelfDelimiting Map.read stream) ∧
    ∀ (stream : List UInt8) (t : Tileset), Tileset.read stream = .ok t →
      SelfDelimiting Tileset.read stream := by
  constructor
  · intro stream m h
    exact (Reader.map_exact maxNesting).selfDelimiting h
  · intro stream t h
    exact (Reader.tileset_exact maxNesting).selfDelimiting h

theorem selfDelimiting_of_read_sample :
    (∃ stream, Map.read stream = .ok sampleMap.baked ∧ SelfDelimiting Map.read stream) ∧
    ∃ stream, Tileset.read stream = .ok sampleTileset.baked ∧
      SelfDelimiting Tileset.read stream := by
  obtain ⟨stream, hread⟩ := sampleMap_reads
  obtain ⟨stream', hread'⟩ := sampleTileset_reads
  exact ⟨⟨stream, hread, selfDelimiting_of_read.1 stream _ hread⟩,
    stream', hread', selfDelimiting_of_read.2 stream' _ hread'⟩

end TileKiln.Baked
