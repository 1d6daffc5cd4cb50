import TileKiln.Host.Basic
import TileKiln.Proofs.Success

namespace TileKiln

variable {σ τ α β : Type}

inductive Call
  | tileset (path : String) (answer : Tileset)
  | template (path : String) (answer : Template)
  | image (path answer : String)
  | dependency (path : String)
  | log (level : LogLevel) (message : String)

theorem parsed_of_loadDocument {readText : String → Bake σ String}
    {addDependency : String → StateM σ Unit} {parse : (document path : String) → Document.Result α}
    {path : String} {s s' : σ} {a : α}
    (h : (loadDocument readText addDependency parse path).run.run s = (.ok a, s')) :
    ∃ document, parse document path = .ok a := by
  obtain ⟨document, s₁, _, h⟩ := Bake.ok_of_bind h
  obtain ⟨_, s₂, _, h⟩ := Bake.ok_of_bind h
  split at h
  next a' hparse =>
    cases h
    exact ⟨document, hparse⟩
  next => cases h

namespace Call

def tileset? : Call → Option (String × Tileset)
  | tileset path answer => some (path, answer)
  | _ => none

def template? : Call → Option (String × Template)
  | template path answer => some (path, answer)
  | _ => none

def image? : Call → Option String
  | image path _ => some path
  | _ => none

def document? : Call → Option String
  | tileset path _ | template path _ => some path
  | _ => none

end Call

namespace Host

def Serves (host : Host σ) : Call → σ → σ → Prop
  | .tileset path answer, s, s' => (host.loadTileset path).run.run s = (.ok answer, s')
  | .template path answer, s, s' => (host.loadTemplate path).run.run s = (.ok answer, s')
  | .image path answer, s, s' => (host.resolveImage path).run.run s = (.ok answer, s')
  | .dependency path, s, s' => (host.addDependency path).run s = ((), s')
  | .log level message, s, s' => (host.log level message).run s = ((), s')

inductive Replays (host : Host σ) : List Call → σ → σ → Prop
  | nil (s) : Replays host [] s s
  | cons (call calls s s₁ s') (hcall : host.Serves call s s₁) (hcalls : Replays host calls s₁ s') :
      Replays host (call :: calls) s s'

variable {host : Host σ} {call : Call} {calls front back : List Call} {s s₁ s' : σ}

theorem replays_singleton : host.Replays [call] s s' ↔ host.Serves call s s' := by
  constructor
  · intro h
    cases h with
    | cons _ _ _ s₁ _ hcall hcalls =>
        cases hcalls
        exact hcall
  · intro h
    exact .cons call [] s s' s' h (.nil s')

theorem Replays.append (hfront : host.Replays front s s₁) (hback : host.Replays back s₁ s') :
    host.Replays (front ++ back) s s' := by
  induction hfront with
  | nil => exact hback
  | cons call calls s s₁ _ hcall _ ih => exact .cons call _ s s₁ s' hcall (ih hback)

theorem Replays.split (h : host.Replays (front ++ back) s s') :
    ∃ s₁, host.Replays front s s₁ ∧ host.Replays back s₁ s' := by
  induction front generalizing s with
  | nil => exact ⟨s, .nil s, h⟩
  | cons call front ih =>
      cases h with
      | cons _ _ _ s₁ _ hcall hcalls =>
          obtain ⟨s₂, hfront, hback⟩ := ih hcalls
          exact ⟨s₂, .cons call front s s₁ s₂ hcall hfront, hback⟩

theorem Replays.serves_of_mem (h : host.Replays calls s s') (hcall : call ∈ calls) :
    ∃ s₁ s₂, host.Serves call s₁ s₂ := by
  induction h with
  | nil => cases hcall
  | cons first calls s s₁ s' hfirst _ ih =>
      rcases List.mem_cons.1 hcall with rfl | hcall
      · exact ⟨s, s₁, hfirst⟩
      · exact ih hcall

def note (call : α → Call) (act : Bake σ α) : Bake (σ × List Call) α :=
  ExceptT.mk fun (s, calls) =>
    match act.run.run s with
    | (.ok answer, s) => (.ok answer, s, calls ++ [call answer])
    | (.error e, s) => (.error e, s, calls)

def noteAlways (call : Call) (act : StateM σ Unit) : StateM (σ × List Call) Unit :=
  fun (s, calls) => ((), (act.run s).2, calls ++ [call])

def noting (host : Host σ) : Host (σ × List Call) where
  readText path := ExceptT.mk fun (s, calls) =>
    let (text, s) := (host.readText path).run.run s
    (text, s, calls)
  addDependency path := noteAlways (.dependency path) (host.addDependency path)
  resolveImage path := note (.image path) (host.resolveImage path)
  log level message := noteAlways (.log level message) (host.log level message)
  loadTemplate path := note (.template path) (host.loadTemplate path)
  loadTileset path := note (.tileset path) (host.loadTileset path)

theorem note_of_ok {call : α → Call} {act : Bake σ α} {answer : α}
    (h : act.run.run s = (.ok answer, s')) (before : List Call) :
    (note call act).run.run (s, before) = (.ok answer, s', before ++ [call answer]) := by
  change act s = _ at h
  change (note call act) (s, before) = _
  simp only [note, ExceptT.mk, ExceptT.run, StateT.run, h]

theorem noteAlways_of_eq {act : StateM σ Unit} (h : act.run s = ((), s')) (call : Call)
    (before : List Call) :
    (noteAlways call act).run (s, before) = ((), s', before ++ [call]) := by
  change ((), (act.run s).2, before ++ [call]) = _
  rw [h]

theorem Serves.noting (h : host.Serves call s s') (before : List Call) :
    host.noting.Serves call (s, before) (s', before ++ [call]) := by
  cases call with
  | tileset | template | image => exact note_of_ok h before
  | dependency | log => exact noteAlways_of_eq h _ before

theorem Replays.noting (h : host.Replays calls s s') (before : List Call) :
    host.noting.Replays calls (s, before) (s', before ++ calls) := by
  induction h generalizing before with
  | nil =>
      rw [List.append_nil]
      exact .nil _
  | cons call calls s s₁ s' hcall _ ih =>
      rw [List.append_cons]
      exact .cons call calls _ _ _ (hcall.noting before) (ih (before ++ [call]))

end Host

abbrev Hosted (α : Type) := (σ : Type) → Host σ → Bake σ α

def Host.calls (host : Host σ) (program : Hosted α) (s : σ) : List Call :=
  ((program (σ × List Call) host.noting).run.run (s, [])).2.2

namespace Hosted

variable {program : Hosted α} {next : α → Hosted β} {told told' : List Call → α → Prop}

/-- Whenever the computation succeeds it has made calls that `told` says something about, and they
lead it to the same result over every host that gives the same answers. -/
def Recorded (program : Hosted α) (told : List Call → α → Prop) : Prop :=
  ∀ ⦃σ : Type⦄ (host : Host σ) ⦃s : σ⦄ ⦃a : α⦄ ⦃s' : σ⦄,
    (program σ host).run.run s = (.ok a, s') →
      ∃ calls, host.Replays calls s s' ∧ told calls a ∧
        ∀ ⦃τ : Type⦄ (other : Host τ) ⦃t t' : τ⦄, other.Replays calls t t' →
          (program τ other).run.run t = (.ok a, t')

theorem Recorded.mono (h : Recorded program told)
    (himp : ∀ calls a, told calls a → told' calls a) : Recorded program told' := by
  intro σ host s a s' hrun
  obtain ⟨calls, hreplays, htold, hsame⟩ := h host hrun
  exact ⟨calls, hreplays, himp calls a htold, hsame⟩

/-- What is known of a computation that has succeeded: about the calls that it has made, and about
any host that gives the same answers to them. -/
theorem Recorded.of_run (h : Recorded program told) {host : Host σ} {s s' : σ} {a : α}
    (hrun : (program σ host).run.run s = (.ok a, s')) :
    host.Replays (host.calls program s) s s' ∧ told (host.calls program s) a ∧
      ∀ ⦃τ : Type⦄ (other : Host τ) ⦃t t' : τ⦄, other.Replays (host.calls program s) t t' →
        (program τ other).run.run t = (.ok a, t') := by
  obtain ⟨calls, hreplays, htold, hsame⟩ := h host hrun
  have hcalls : host.calls program s = calls := by
    rw [Host.calls, hsame host.noting (hreplays.noting [])]
    rfl
  rw [hcalls]
  exact ⟨hreplays, htold, hsame⟩

theorem recorded_pure (a : α) :
    Recorded (fun _ _ => pure a) fun calls b => calls = [] ∧ b = a := by
  intro σ host s b s' hrun
  cases hrun
  refine ⟨[], .nil s, ⟨rfl, rfl⟩, ?_⟩
  intro τ other t t' hother
  cases hother
  rfl

theorem recorded_throw (e : BakeError) : Recorded (fun _ _ => throw e) told := by
  intro σ host s a s' hrun
  cases hrun

theorem recorded_liftExcept {ε : Type} (result : Except ε α) (f : ε → BakeError) :
    Recorded (fun _ _ => liftExcept (result.mapError f)) fun calls a =>
      calls = [] ∧ result = .ok a := by
  intro σ host s a s' hrun
  obtain ⟨rfl, rfl⟩ := Bake.ok_of_liftExcept hrun
  refine ⟨[], .nil s', ⟨rfl, rfl⟩, ?_⟩
  intro τ other t t' hother
  cases hother
  rfl

/-- What is said of the second computation is what is left to say after the calls of the first. -/
theorem Recorded.bind {toldNext : List Call → β → Prop} (h : Recorded program told)
    (hnext : ∀ a, Recorded (next a) fun back b => ∀ front, told front a → toldNext (front ++ back) b) :
    Recorded (fun σ host => program σ host >>= fun a => next a σ host) toldNext := by
  intro σ host s b s' hrun
  obtain ⟨a, s₁, hfirst, hrest⟩ := Bake.ok_of_bind hrun
  obtain ⟨front, hfront, htold, hsame⟩ := h host hfirst
  obtain ⟨back, hback, htoldNext, hsameNext⟩ := hnext a host hrest
  refine ⟨front ++ back, hfront.append hback, htoldNext front htold, ?_⟩
  intro τ other t t' hother
  obtain ⟨t₁, hother, hotherNext⟩ := hother.split
  exact (Bake.bind_of_ok (hsame other hother)).trans (hsameNext other hotherNext)

theorem recorded_of_serves (call : α → Call)
    (h : ∀ (σ : Type) (host : Host σ) (s : σ) (a : α) (s' : σ),
      host.Serves (call a) s s' ↔ (program σ host).run.run s = (.ok a, s')) :
    Recorded program fun calls a => calls = [call a] := by
  intro σ host s a s' hrun
  refine ⟨[call a], Host.replays_singleton.2 ((h σ host s a s').2 hrun), rfl, ?_⟩
  intro τ other t t' hother
  exact (h τ other t a t').1 (Host.replays_singleton.1 hother)

theorem recorded_loadTileset (path : String) :
    Recorded (fun _ host => host.loadTileset path) fun calls t => calls = [.tileset path t] :=
  recorded_of_serves (.tileset path) fun _ _ _ _ _ => Iff.rfl

theorem recorded_loadTemplate (path : String) :
    Recorded (fun _ host => host.loadTemplate path) fun calls t => calls = [.template path t] :=
  recorded_of_serves (.template path) fun _ _ _ _ _ => Iff.rfl

theorem recorded_resolveImage (path : String) :
    Recorded (fun _ host => host.resolveImage path) fun calls source =>
      calls = [.image path source] :=
  recorded_of_serves (.image path) fun _ _ _ _ _ => Iff.rfl

theorem recorded_lift {act : (σ : Type) → Host σ → StateM σ Unit} {call : Call}
    (h : ∀ (σ : Type) (host : Host σ) (s s' : σ),
      host.Serves call s s' ↔ (act σ host).run s = ((), s')) :
    Recorded (fun σ host => liftM (act σ host)) fun calls _ => calls = [call] := by
  apply recorded_of_serves fun _ => call
  intro σ host s _ s'
  rw [h]
  change _ ↔ (Except.ok ((act σ host).run s).1, ((act σ host).run s).2) = _
  constructor
  · intro hact
    rw [hact]
  · intro hact
    have hstate := congrArg Prod.snd hact
    exact Prod.ext rfl hstate

theorem recorded_addDependency (path : String) :
    Recorded (fun _ host => liftM (host.addDependency path)) fun calls _ =>
      calls = [.dependency path] :=
  recorded_lift fun _ _ _ _ => Iff.rfl

theorem recorded_log (level : LogLevel) (message : String) :
    Recorded (fun _ host => liftM (host.log level message)) fun calls _ =>
      calls = [.log level message] :=
  recorded_lift fun _ _ _ _ => Iff.rfl

end Hosted

end TileKiln
