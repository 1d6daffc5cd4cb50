import TileKiln.Proofs.AssemblyCalls
import TileKiln.Proofs.CompiledMap

namespace TileKiln

open Hosted

variable {α : Type}

theorem recorded_reporting {compile : Hosted (List UInt8)} {told : List Call → List UInt8 → Prop}
    (h : Recorded compile told) (path : String) :
    Recorded (fun σ host => reporting host path (compile σ host)) told := by
  intro σ host s stream s' hrun
  obtain ⟨calls, hreplays, htold, hsame⟩ := h host (ok_of_reporting hrun)
  refine ⟨calls, hreplays, htold, ?_⟩
  intro τ other t t' hother
  exact reporting_of_ok (hsame other hother)

theorem recorded_compileWith {assemble : α → (σ : Type) → Host σ → Work σ α}
    {told : α → List Call → α → Prop} (parse : Document.Result α) (write : α → Writer Unit)
    (h : ∀ parsed, Recorded (fun σ host => (assemble parsed σ host).toBake) (told parsed)) :
    Recorded (fun σ host => compileWith parse (fun parsed => assemble parsed σ host) write)
      fun calls stream => ∃ parsed assembled, parse = .ok parsed ∧ told parsed calls assembled ∧
        (write assembled).bytes = .ok stream := by
  refine (recorded_liftExcept parse _).bind fun parsed => ?_
  refine (h parsed).bind fun assembled => ?_
  refine (recorded_liftExcept _ _).mono ?_
  rintro _ stream ⟨rfl, hwrite⟩ calls htold _ ⟨rfl, hparse⟩
  rw [List.append_nil, List.nil_append]
  exact ⟨parsed, assembled, hparse, htold, hwrite⟩

/-- What is logged before a compilation. -/
theorem recorded_logged {compile : Hosted (List UInt8)} {told : List Call → List UInt8 → Prop}
    (h : Recorded compile told) (message : String) :
    Recorded (fun σ host => do
      host.log .debug message
      compile σ host)
      fun calls stream => ∃ rest, calls = .log .debug message :: rest ∧ told rest stream := by
  refine (recorded_log .debug message).bind fun _ => h.mono ?_
  rintro rest stream htold _ rfl
  exact ⟨rest, rfl, htold⟩

theorem recorded_compileMap (settings : BakeSettings) (document path : String) :
    Recorded (fun _ host => compileMap host settings document path) fun calls stream =>
      ∃ parsed loaded loads shapes after,
        calls = .log .debug ("compiling map " ++ path) :: (loads ++ shapes) ∧
        Map.parse document path = .ok parsed ∧
        Assembly.Transcript parsed loaded loads shapes after ∧
        Writer.bytes after.write = .ok stream := by
  have hcompile := recorded_compileWith (Map.parse document path) Map.write
    (Assembly.assemble_recorded settings)
  refine (recorded_logged (recorded_reporting hcompile path) _).mono ?_
  rintro _ stream ⟨_, rfl, parsed, after, hparse, ⟨loaded, loads, shapes, rfl, htranscript⟩, hwrite⟩
  exact ⟨parsed, loaded, loads, shapes, after, rfl, hparse, htranscript, hwrite⟩

theorem recorded_compileTileset (document path : String) :
    Recorded (fun _ host => compileTileset host document path) fun calls stream =>
      ∃ (parsed after : Tileset) (rest : List Call),
        calls = .log .debug ("compiling tileset " ++ path) :: rest ∧
        Tileset.parse document path = .ok parsed ∧
        Account [] parsed.parts rest after.parts ∧ Writer.bytes after.write = .ok stream := by
  have hcompile := recorded_compileWith (Tileset.parse document path) Tileset.write
    Assembly.assembleTileset_recorded
  refine (recorded_logged (recorded_reporting hcompile path) _).mono ?_
  rintro _ stream ⟨rest, rfl, parsed, after, hparse, haccount, hwrite⟩
  exact ⟨parsed, after, rest, rfl, hparse, haccount, hwrite⟩

theorem Assembly.Transcript.isLoaded {before after : Map} {loaded : List Tileset}
    {loads calls : List Call} (h : Transcript before loaded loads calls after) :
    after.IsLoaded := by
  obtain ⟨refilled, hafter, _⟩ := h.tilesets
  intro entry hentry
  rw [hafter] at hentry
  obtain ⟨t, _, rfl⟩ := List.mem_map.1 hentry
  exact ⟨t, rfl⟩

end TileKiln
