import TileKiln.Host.Memory
import TileKiln.Proofs.Canonical
import TileKiln.Proofs.CompiledMap
import TileKiln.Proofs.NestedGroups

namespace TileKiln

variable {σ : Type} {host : Host σ} {settings : BakeSettings} {document path : String}
  {stream : List UInt8} {s s' : σ}

theorem compileTileset_of_ok {parsed after : Tileset} {s₁ : σ}
    (hlog : (host.log .debug ("compiling tileset " ++ path)).run s = ((), s₁))
    (hparse : Tileset.parse document path = .ok parsed)
    (hassemble : parsed.assemble host s₁ = (⟨after, none⟩, s'))
    (hwrite : Writer.bytes after.write = .ok stream) :
    (compileTileset host document path).run.run s = (.ok stream, s') :=
  logged_compileWith_of_ok hlog hparse hassemble hwrite

theorem of_compileTileset
    (h : (compileTileset host document path).run.run s = (.ok stream, s')) :
    ∃ parsed assembled, Tileset.parse document path = .ok parsed ∧
      (parsed.assemble host).Yields assembled ∧
      Writer.bytes assembled.write = .ok stream := by
  obtain ⟨_, s₁, _, h⟩ := Bake.ok_of_bind h
  exact of_compileWith (ok_of_reporting h)

namespace Baked

variable {α : Type}

/-- The stream is read as `a` unless that nests too deep, which is all that can be wrong with it. -/
structure ReadsIfShallow (read : List UInt8 → Except ReadError α) (stream : List UInt8) (a : α)
    (shallow : Prop) : Prop where
  reads : shallow → read stream = .ok a
  tooDeep : ¬ shallow → ∃ place, read stream = .error (.tooDeep place)

theorem ReadsBack.readsIfShallow {write : Writer Unit} {read : Reader α} {a : α}
    {fits shallow : Prop} (h : ReadsBack write read a fits shallow)
    (hshallow : read.run stream = .ok a → shallow) (hstream : Writer.bytes write = .ok stream) :
    ReadsIfShallow read.run stream a shallow := by
  rcases h.run hstream with hread | ⟨hdeep, place, hread⟩
  · exact ⟨fun _ => hread, fun hdeep => absurd (hshallow hread) hdeep⟩
  · exact ⟨fun h => absurd h hdeep, fun _ => ⟨place, hread⟩⟩

theorem map_readsIfShallow {map : TileKiln.Map} (hloaded : map.IsLoaded)
    (hstream : Writer.bytes map.write = .ok stream) :
    ReadsIfShallow Map.read stream map.baked map.Shallow :=
  (map_readsBack hloaded).readsIfShallow
    (fun hread => Map.shallow_of_baked (layout_of_read hread).2.1) hstream

theorem tileset_readsIfShallow {tileset : TileKiln.Tileset}
    (hstream : Writer.bytes tileset.write = .ok stream) :
    ReadsIfShallow Tileset.read stream tileset.baked tileset.Shallow :=
  (tileset_readsBack tileset).readsIfShallow
    (fun hread => Tileset.shallow_of_baked (layout_of_readTileset hread).2.1) hstream

end Baked

/-- What has been compiled is read back as the graph that the run assembled and wrote, exactly if that
graph nests no deeper than readers go. -/
theorem readsIfShallow_of_compile :
    (∀ {σ : Type} (host : Host σ) (settings : BakeSettings) (document path : String)
      (stream : List UInt8) (s s' : σ),
      (compileMap host settings document path).run.run s = (.ok stream, s') →
        ∃ parsed assembled, Map.parse document path = .ok parsed ∧
          parsed.assemble host settings
            ((host.log .debug ("compiling map " ++ path)).run s).2 = (⟨assembled, none⟩, s') ∧
          Writer.bytes assembled.write = .ok stream ∧
          Baked.ReadsIfShallow Baked.Map.read stream assembled.baked assembled.Shallow) ∧
    ∀ {σ : Type} (host : Host σ) (document path : String) (stream : List UInt8) (s s' : σ),
      (compileTileset host document path).run.run s = (.ok stream, s') →
        ∃ parsed assembled, Tileset.parse document path = .ok parsed ∧
          parsed.assemble host
            ((host.log .debug ("compiling tileset " ++ path)).run s).2 = (⟨assembled, none⟩, s') ∧
          Writer.bytes assembled.write = .ok stream ∧
          Baked.ReadsIfShallow Baked.Tileset.read stream assembled.baked assembled.Shallow := by
  constructor
  · intro σ host settings document path stream s s' h
    obtain ⟨parsed, assembled, hparse, hassemble, hwrite⟩ := run_of_logged_compileWith h
    obtain ⟨loaded, tilesets, painted, stages⟩ :=
      Assembly.stages_of_assemble (.of_eq hassemble)
    exact ⟨parsed, assembled, hparse, hassemble, hwrite,
      Baked.map_readsIfShallow stages.isLoaded hwrite⟩
  · intro σ host document path stream s s' h
    obtain ⟨parsed, assembled, hparse, hassemble, hwrite⟩ := run_of_logged_compileWith h
    exact ⟨parsed, assembled, hparse, hassemble, hwrite, Baked.tileset_readsIfShallow hwrite⟩

namespace NestedGroups

/-- Any depth is compiled, but not any depth is read. -/
theorem compile_nested (host : Host σ) (depth : Nat) (s : σ) :
    ∃ stream s', (compileMap host {} (nested depth) "level.tmx").run.run s = (.ok stream, s') ∧
      Baked.ReadsIfShallow Baked.Map.read stream (assembled depth).baked
        (depth ≤ Baked.maxNesting) := by
  have hloaded : (assembled depth).IsLoaded := fun _ he => absurd he List.not_mem_nil
  obtain ⟨stream, hwrite⟩ := (Baked.map_readsBack hloaded).bytes_of_fits (assembled_fits depth)
  have hassemble := congrFun (assemble_map host depth)
    ((host.log .debug ("compiling map " ++ "level.tmx")).run s).2
  refine ⟨stream, _, compileMap_of_ok rfl (parse_map depth) hassemble hwrite, ?_⟩
  rw [← assembled_shallow_iff]
  exact Baked.map_readsIfShallow hloaded hwrite

/-- One group more than readers go down is compiled all the same. -/
theorem compiled_beyond_maxNesting :
    ∃ stream, (compileMap (Library.plain ⟨[], none⟩) {} (nested 65) "level.tmx").run.run () =
        (.ok stream, ()) ∧
      ∃ place, Baked.Map.read stream = .error (.tooDeep place) := by
  obtain ⟨stream, _, hcompile, hread⟩ := compile_nested (Library.plain ⟨[], none⟩) 65 ()
  exact ⟨stream, hcompile, hread.tooDeep (by decide)⟩

end NestedGroups

theorem parse_bareTileset :
    Tileset.parse "<tileset/>" "cave.tsx" = .ok { source := some "cave.tsx" } := by
  have htokens : Xml.Reads "<tileset/>" [.opening ⟨"", "tileset"⟩ [] true] := by decide +kernel
  have hroot : Xml.parse? "<tileset/>" = some (.element "tileset" [] []) := htokens.parse? rfl
  rw [Tileset.parse, Document.root, hroot]
  rfl

theorem readsIfShallow_of_compile_sample :
    (∃ stream, (compileMap (Library.plain ⟨[], none⟩) {} (NestedGroups.nested 64)
        "level.tmx").run.run () = (.ok stream, ()) ∧
      Baked.Map.read stream = .ok (NestedGroups.assembled 64).baked) ∧
    ∃ stream, (compileTileset (Library.plain ⟨[], none⟩) "<tileset/>" "cave.tsx").run.run () =
        (.ok stream, ()) ∧
      Baked.Tileset.read stream = .ok (Tileset.baked { source := some "cave.tsx" }) := by
  constructor
  · obtain ⟨stream, _, hcompile, _⟩ := NestedGroups.compile_nested (Library.plain ⟨[], none⟩) 64 ()
    obtain ⟨parsed, after, hparse, hassemble, _, hread⟩ :=
      readsIfShallow_of_compile.1 _ _ _ _ stream () () hcompile
    rw [NestedGroups.parse_map] at hparse
    cases hparse
    rw [NestedGroups.assemble_map] at hassemble
    cases hassemble
    have hshallow := (NestedGroups.assembled_shallow_iff 64).2 (by decide)
    exact ⟨stream, hcompile, hread.reads hshallow⟩
  · have hfits : Tileset.Fits { source := some "cave.tsx" } := by
      have hnone : FitsWord 0 := by decide
      exact ⟨trivial, hnone, fun _ ht => absurd ht List.not_mem_nil, ⟨hnone, trivial⟩⟩
    have hshallow : Tileset.Shallow { source := some "cave.tsx" } :=
      ⟨fun _ ht => absurd ht List.not_mem_nil, Nat.zero_le _⟩
    obtain ⟨stream, hwrite⟩ := (Baked.tileset_readsBack _).bytes_of_fits hfits
    have hcompile : (compileTileset (Library.plain ⟨[], none⟩) "<tileset/>" "cave.tsx").run.run () =
        (.ok stream, ()) := compileTileset_of_ok rfl parse_bareTileset rfl hwrite
    obtain ⟨parsed, after, hparse, hassemble, _, hread⟩ :=
      readsIfShallow_of_compile.2 _ _ _ stream () () hcompile
    rw [parse_bareTileset] at hparse
    cases hparse
    cases hassemble
    exact ⟨stream, hcompile, hread.reads hshallow⟩

end TileKiln
