import TileKiln.Proofs.AlikeHosts
import TileKiln.Proofs.CompiledMap
import TileKiln.Proofs.HostCalls

namespace TileKiln

variable {σ α : Type}

def Call.log? : Call → Option (LogLevel × String)
  | log level message => some (level, message)
  | _ => none

namespace Host

def logs (host : Host σ) (program : Hosted α) (s : σ) : List (LogLevel × String) :=
  (host.calls program s).filterMap Call.log?

theorem alike_note (call : α → Call) (act : Bake σ α) :
    TileKiln.Alike (fun p s => p.1 = s) (note call act) act := by
  rintro ⟨s, calls⟩ _ rfl
  rcases hrun : act s with ⟨e | answer, s'⟩
  · refine ⟨.error e, (s', calls), s', ?_, rfl, rfl⟩
    simp only [note, ExceptT.mk, ExceptT.run, StateT.run, hrun]
  · refine ⟨.ok answer, (s', calls ++ [call answer]), s', ?_, rfl, rfl⟩
    simp only [note, ExceptT.mk, ExceptT.run, StateT.run, hrun]

theorem alike_noteAlways (call : Call) (act : StateM σ Unit) :
    TileKiln.Alike (fun p s => p.1 = s) (noteAlways call act) act := by
  rintro ⟨s, calls⟩ _ rfl
  exact ⟨(), _, _, rfl, rfl, rfl⟩

/-- The host that notes its calls answers as before. -/
theorem alike_noting (host : Host σ) : host.noting.Alike (fun p s => p.1 = s) host where
  tileset _ := alike_note _ _
  template _ := alike_note _ _
  image _ := alike_note _ _
  dependency _ := alike_noteAlways _ _
  log _ _ := alike_noteAlways _ _

def Quiet (calls : List Call) : Prop := ∀ message, Call.log .error message ∉ calls

theorem Quiet.concat {calls : List Call} (h : Quiet calls) {call : Call}
    (hcall : ∀ message, call ≠ .log .error message) : Quiet (calls ++ [call]) := by
  intro message hmem
  rcases List.mem_append.1 hmem with hmem | hmem
  · exact h message hmem
  · exact hcall message (List.mem_singleton.1 hmem).symm

def StaysQuiet (run : σ × List Call → α × (σ × List Call)) : Prop :=
  ∀ p, Quiet p.2 → Quiet (run p).2.2

/-- The rules for runs that are alike serve for quiet runs, each of which is like itself. -/
theorem staysQuiet_iff_alike {run : σ × List Call → α × (σ × List Call)} :
    StaysQuiet run ↔ TileKiln.Alike (fun p q => p = q ∧ Quiet p.2) run run := by
  constructor
  · rintro h p _ ⟨rfl, hp⟩
    exact ⟨_, _, _, rfl, rfl, rfl, h p hp⟩
  · intro h p hp
    obtain ⟨a, p', q', hrun, _, _, hp'⟩ := h (s := p) (t := p) ⟨rfl, hp⟩
    rwa [hrun]

theorem staysQuiet_note (call : α → Call) (act : Bake σ α)
    (hcall : ∀ answer message, call answer ≠ .log .error message) : StaysQuiet (note call act) := by
  intro ⟨s, calls⟩ hp
  simp only [note, ExceptT.mk]
  split
  next answer _ _ => exact hp.concat (hcall answer)
  next => exact hp

theorem staysQuiet_noteAlways (call : Call) (act : StateM σ Unit)
    (hcall : ∀ message, call ≠ .log .error message) : StaysQuiet (noteAlways call act) :=
  fun _ hp => hp.concat hcall

def hushed (host : Host σ) : Host σ := { host with log := fun _ => host.log .debug }

theorem alike_hushed (host : Host σ) :
    host.noting.hushed.Alike (fun p q => p = q ∧ Quiet p.2) host.noting.hushed where
  tileset path := staysQuiet_iff_alike.1 (staysQuiet_note (.tileset path) _ fun _ _ h => nomatch h)
  template path := staysQuiet_iff_alike.1 (staysQuiet_note (.template path) _ fun _ _ h => nomatch h)
  image path := staysQuiet_iff_alike.1 (staysQuiet_note (.image path) _ fun _ _ h => nomatch h)
  dependency path :=
    staysQuiet_iff_alike.1 (staysQuiet_noteAlways (.dependency path) _ fun _ h => nomatch h)
  log _ message :=
    staysQuiet_iff_alike.1 (staysQuiet_noteAlways (.log .debug message) _ fun _ h => nomatch h)

end Host

namespace Assembly

mutual

theorem layer_hushed (host : Host σ) (around : Surroundings) : (l : Layer) →
    layer host.hushed around l = layer host around l
  | .tiles head g => by
      rw [layer, layer]
      rfl
  | .image head picture => by
      rw [layer, layer]
      rfl
  | .objects head items => by
      rw [layer, layer]
      rfl
  | .group head members => by
      rw [layer, layer, layers_hushed host around members]

theorem layers_hushed (host : Host σ) (around : Surroundings) : (ls : List Layer) →
    layers host.hushed around ls = layers host around ls
  | [] => by
      rw [layers, layers]
  | l :: ls => by
      rw [layers, layers, layer_hushed host around l, layers_hushed host around ls]

end

theorem assemble_hushed (host : Host σ) (settings : BakeSettings) (map : Map) :
    map.assemble host.hushed settings = map.assemble host settings := by
  have hlayers : allLayers host.hushed = allLayers host := by
    funext map
    rw [allLayers, allLayers, layers_hushed]
  rw [Map.assemble, Map.assemble, hlayers]
  rfl

end Assembly

variable {host : Host σ} {settings : BakeSettings} {document path : String}

theorem staysQuiet_compileWith (host : Host σ) :
    Host.StaysQuiet (compileWith (Map.parse document path) (Map.assemble host.noting settings)
      Map.write) := by
  have hhushed : Map.assemble host.noting settings = Map.assemble host.noting.hushed settings :=
    funext fun map => (Assembly.assemble_hushed host.noting settings map).symm
  rw [hhushed, Host.staysQuiet_iff_alike]
  exact alike_compileWith Map.write (Map.alike_assemble host.alike_hushed settings)

/-- The messages of errors that a compilation with this outcome logs. -/
def reported {α : Type} : Except BakeError α → List String
  | .ok _ | .error (.decode .overflow) => []
  | .error e => [e.message]

theorem reported_of_ne {e : BakeError} (he : e ≠ .decode .overflow) :
    reported (.error e : Except BakeError α) = [e.message] := by
  unfold reported
  split
  next h => cases h
  next h =>
    cases h
    exact absurd rfl he
  next h =>
    cases h
    rfl

/-- A quiet computation that is reported ends quietly, but for the error that it ends with. -/
theorem calls_of_reporting {compile : Bake (σ × List Call) (List UInt8)}
    (h : Host.StaysQuiet compile) {p : σ × List Call} (hp : Host.Quiet p.2) :
    ∃ calls, Host.Quiet calls ∧ ∃ outcome s',
      (reporting host.noting path compile).run.run p =
        (outcome, s', calls ++ (reported outcome).map (.log .error)) := by
  have hquiet := h p hp
  rcases hcompile : compile p with ⟨e | stream, s', calls⟩
  · rw [hcompile] at hquiet
    by_cases he : e = .decode .overflow
    · subst he
      refine ⟨calls, hquiet, .error (.decode .overflow), s',
        (reporting_of_overflow hcompile).trans ?_⟩
      rw [reported, List.map_nil, List.append_nil]
    · exact ⟨calls, hquiet, _, _, reporting_of_error hcompile he⟩
  · rw [hcompile] at hquiet
    refine ⟨calls, hquiet, .ok stream, s', (reporting_of_ok hcompile).trans ?_⟩
    rw [reported, List.map_nil, List.append_nil]

theorem calls_of_compileMap (host : Host σ) (s : σ) :
    ∃ calls, Host.Quiet calls ∧ ∃ outcome s',
      (compileMap host.noting settings document path).run.run (s, []) =
        (outcome, s', calls ++ (reported outcome).map (.log .error)) := by
  let p : σ × List Call := ((host.noting.log .debug ("compiling map " ++ path)).run (s, [])).2
  have hp : Host.Quiet p.2 := by
    intro message hmem
    cases List.mem_singleton.1 hmem
  have hlog : (liftM (host.noting.log .debug ("compiling map " ++ path)) : Bake _ Unit).run.run
      (s, []) = (.ok (), p) := rfl
  rw [compileMap, Bake.bind_of_ok hlog]
  exact calls_of_reporting (staysQuiet_compileWith host) hp

theorem Host.Quiet.not_error {calls : List Call} (h : Host.Quiet calls) :
    ∀ entry ∈ calls.filterMap Call.log?, entry.1 ≠ .error := by
  intro entry hentry hlevel
  obtain ⟨call, hcall, hlog⟩ := List.mem_filterMap.1 hentry
  cases call with
  | log level message =>
      cases hlog
      cases hlevel
      exact h message hcall
  | _ => cases hlog

/-- The messages of a compilation are no errors, but for the last message of one that fails. -/
theorem logs_of_compileMap (host : Host σ) (settings : BakeSettings) (document path : String) (s : σ) :
    ∃ before : List (LogLevel × String), (∀ entry ∈ before, entry.1 ≠ .error) ∧
      host.logs (fun _ host => compileMap host settings document path) s =
        before ++ (reported ((compileMap host settings document path).run.run s).1).map
          fun message => (.error, message) := by
  obtain ⟨outcome, p, s', hnoting, hrun, _⟩ :=
    alike_compileMap host.alike_noting settings document path (s := (s, [])) (t := s) rfl
  have hnoting : (compileMap host.noting settings document path).run.run (s, []) = (outcome, p) :=
    hnoting
  have hrun : (compileMap host settings document path).run.run s = (outcome, s') := hrun
  obtain ⟨calls, hquiet, outcome', q, hcalls⟩ := calls_of_compileMap host s
  cases hnoting.symm.trans hcalls
  refine ⟨calls.filterMap Call.log?, hquiet.not_error, ?_⟩
  rw [Host.logs, Host.calls, hrun, hnoting, List.filterMap_append, List.filterMap_map]
  exact congrArg _ (congrFun List.filterMap_eq_map _)

end TileKiln
