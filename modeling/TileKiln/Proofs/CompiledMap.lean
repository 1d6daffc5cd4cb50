import TileKiln.Compile
import TileKiln.Proofs.AssemblyStages
import TileKiln.Proofs.GidRanges
import TileKiln.Proofs.ParsedMap
import TileKiln.Proofs.StreamLimits

namespace TileKiln

variable {σ : Type} {host : Host σ} {settings : BakeSettings} {document path : String}
  {stream : List UInt8} {s s' : σ}

theorem ok_of_reporting {compile : Bake σ (List UInt8)}
    (h : (reporting host path compile).run.run s = (.ok stream, s')) :
    compile.run.run s = (.ok stream, s') := by
  change ((reporting host path compile) s : Except BakeError (List UInt8) × σ) = _ at h
  rw [reporting, Bake.run_tryCatch] at h
  split at h
  next hrun =>
    cases h
    exact hrun
  next e s₁ _ =>
    -- What has been logged is thrown again.
    by_cases he : e = .decode .overflow
    · subst he
      cases h
    · rw [report_of_ne he] at h
      obtain ⟨_, s₂, _, hthrow⟩ := Bake.ok_of_bind h
      cases hthrow

theorem reporting_of_ok {compile : Bake σ (List UInt8)}
    (h : compile.run.run s = (.ok stream, s')) :
    (reporting host path compile).run.run s = (.ok stream, s') := by
  change compile s = _ at h
  change (reporting host path compile) s = _
  rw [reporting, Bake.run_tryCatch, h]

/-- A failure is logged, and then it is the outcome. -/
theorem reporting_of_error {compile : Bake σ (List UInt8)} {e : BakeError}
    (h : compile.run.run s = (.error e, s')) (he : e ≠ .decode .overflow) :
    (reporting host path compile).run.run s = (.error (.inFile path e),
      ((host.log .error (BakeError.inFile path e).message).run s').2) := by
  change compile s = _ at h
  change (reporting host path compile) s = _
  rw [reporting, Bake.run_tryCatch, h]
  dsimp only
  rw [report_of_ne he]
  rfl

theorem reporting_of_overflow {compile : Bake σ (List UInt8)}
    (h : compile.run.run s = (.error (.decode .overflow), s')) :
    (reporting host path compile).run.run s = (.error (.decode .overflow), s') := by
  change compile s = _ at h
  change (reporting host path compile) s = _
  rw [reporting, Bake.run_tryCatch, h]
  rfl

theorem run_of_compileWith {α : Type} {parse : Document.Result α} {assemble : α → Work σ α}
    {write : α → Writer Unit}
    (h : (compileWith parse assemble write).run.run s = (.ok stream, s')) :
    ∃ parsed assembled, parse = .ok parsed ∧ assemble parsed s = (⟨assembled, none⟩, s') ∧
      (write assembled).bytes = .ok stream := by
  obtain ⟨parsed, s₁, hfirst, hrest⟩ := Bake.ok_of_bind h
  obtain ⟨assembled, s₂, hassemble, hlast⟩ := Bake.ok_of_bind hrest
  obtain ⟨hparse, rfl⟩ := Bake.ok_of_liftExcept hfirst
  obtain ⟨hwrite, rfl⟩ := Bake.ok_of_liftExcept hlast
  exact ⟨parsed, assembled, hparse, Work.toBake_eq_ok_iff.1 hassemble, hwrite⟩

theorem of_compileWith {α : Type} {parse : Document.Result α} {assemble : α → Work σ α}
    {write : α → Writer Unit}
    (h : (compileWith parse assemble write).run.run s = (.ok stream, s')) :
    ∃ parsed assembled, parse = .ok parsed ∧ (assemble parsed).Yields assembled ∧
      (write assembled).bytes = .ok stream := by
  obtain ⟨parsed, assembled, hparse, hassemble, hwrite⟩ := run_of_compileWith h
  exact ⟨parsed, assembled, hparse, .of_eq hassemble, hwrite⟩

theorem compileWith_of_failure {α : Type} {parse : Document.Result α} {assemble : α → Work σ α}
    {parsed reached : α} {e : BakeError} (write : α → Writer Unit) (hparse : parse = .ok parsed)
    (hassemble : assemble parsed s = (⟨reached, some e⟩, s')) :
    (compileWith parse assemble write).run.run s = (.error e, s') := by
  have hfails : (assemble parsed).toBake s = (.error e, s') := by
    simp only [Work.toBake, ExceptT.mk, hassemble]
  rw [compileWith, hparse]
  change ((assemble parsed).toBake >>= _) s = _
  rw [run_bind, hfails]

/-- The assembly in a compilation goes on from what the host is left in by the first message. -/
theorem run_of_logged_compileWith {α : Type} {parse : Document.Result α}
    {assemble : α → Work σ α} {write : α → Writer Unit} {message : String}
    (h : (do host.log .debug message
             reporting host path (compileWith parse assemble write) : Bake σ _).run.run s =
      (.ok stream, s')) :
    ∃ parsed assembled, parse = .ok parsed ∧
      assemble parsed ((host.log .debug message).run s).2 = (⟨assembled, none⟩, s') ∧
      (write assembled).bytes = .ok stream := by
  obtain ⟨_, s₁, hlog, h⟩ := Bake.ok_of_bind h
  obtain rfl : ((host.log .debug message).run s).2 = s₁ := congrArg Prod.snd hlog
  exact run_of_compileWith (ok_of_reporting h)

theorem logged_compileWith_of_ok {α : Type} {parse : Document.Result α}
    {assemble : α → Work σ α} {write : α → Writer Unit} {parsed after : α} {message : String}
    {s₁ : σ} (hlog : (host.log .debug message).run s = ((), s₁)) (hparse : parse = .ok parsed)
    (hassemble : assemble parsed s₁ = (⟨after, none⟩, s'))
    (hwrite : (write after).bytes = .ok stream) :
    (do host.log .debug message
        reporting host path (compileWith parse assemble write) : Bake σ _).run.run s =
      (.ok stream, s') := by
  have hlogged : (liftM (host.log .debug message) : Bake σ Unit).run.run s = (.ok (), s₁) := by
    change (Except.ok _, ((host.log .debug message).run s).2) = _
    rw [hlog]
  refine (Bake.bind_of_ok hlogged).trans (reporting_of_ok ?_)
  rw [compileWith, hparse]
  refine (Bake.bind_of_ok (Work.toBake_eq_ok_iff.2 hassemble)).trans ?_
  rw [hwrite]
  rfl

theorem compileMap_of_ok {parsed after : Map} {s₁ : σ}
    (hlog : (host.log .debug ("compiling map " ++ path)).run s = ((), s₁))
    (hparse : Map.parse document path = .ok parsed)
    (hassemble : parsed.assemble host settings s₁ = (⟨after, none⟩, s'))
    (hwrite : Writer.bytes after.write = .ok stream) :
    (compileMap host settings document path).run.run s = (.ok stream, s') :=
  logged_compileWith_of_ok hlog hparse hassemble hwrite

theorem of_compileMap
    (h : (compileMap host settings document path).run.run s = (.ok stream, s')) :
    ∃ parsed assembled, Map.parse document path = .ok parsed ∧
      (parsed.assemble host settings).Yields assembled ∧
      Writer.bytes assembled.write = .ok stream := by
  obtain ⟨_, s₁, _, h⟩ := Bake.ok_of_bind h
  exact of_compileWith (ok_of_reporting h)

namespace Assembly

variable {before after : Map} {loaded assembled : List Tileset} {painted : List Layer}

theorem Stages.isLoaded (h : Stages host settings before after loaded assembled painted) :
    after.IsLoaded := by
  intro entry hentry
  rw [h.result] at hentry
  obtain ⟨tileset, _, rfl⟩ := List.mem_map.1 hentry
  exact ⟨tileset, rfl⟩

theorem firstGid_of_loads {entries : List TilesetEntry}
    (h : List.Forall₂ (fun entry t => (load host entry).Yields (.inline t)) entries loaded)
    (hentries : ∀ entry ∈ entries, entry.firstGid ≠ 0) : ∀ t ∈ loaded, t.firstGid ≠ 0 := by
  induction h with
  | nil => simp
  | cons hload _ ih =>
      obtain ⟨t, ht, hfirst⟩ := inline_of_load hload
      cases ht
      simp only [List.forall_mem_cons] at hentries ⊢
      exact ⟨hfirst ▸ hentries.1, ih hentries.2⟩

/-- Assembly with checked ranges divides the global ids among the tilesets. -/
theorem Stages.addressable (h : Stages host settings before after loaded assembled painted)
    (hsettings : settings.checkRanges = true)
    (hentries : ∀ entry ∈ before.tilesets, entry.firstGid ≠ 0) :
    GidRange.Addressable (after.loaded.map Tileset.range) := by
  have hafter : after.loaded = assembled := loaded_of_inline (by rw [h.result])
  have hrefilled := h.tilesets.imp fun _ _ => refilled_of_tileset
  have hchecked := h.checked
  rw [hsettings] at hchecked
  have haddressable := Map.addressable_of_checkGids hchecked
  rw [loaded_of_inline rfl] at haddressable
  rw [hafter, ← map_of_refilled (fun _ _ _ => rfl) hrefilled]
  exact haddressable (firstGid_of_loads h.loads hentries)

end Assembly

end TileKiln
