import TileKiln.Proofs.ErrorLog
import TileKiln.Proofs.LayerFailures
import TileKiln.Proofs.Reassembly

namespace TileKiln

variable {σ : Type}

inductive Place
  | file (path : String)
  | layer (name : String)
  | object (label : String)

namespace BakeError

def placed : Place → BakeError → BakeError
  | .file path => inFile path
  | .layer name => inLayer name
  | .object label => inObject label

def places : BakeError → List Place
  | inFile path cause => .file path :: cause.places
  | inLayer name cause => .layer name :: cause.places
  | inObject label cause => .object label :: cause.places
  | _ => []

theorem foldr_places (e : BakeError) : e.places.foldr placed e.rootCause = e := by
  induction e with
  | inFile path cause ih => exact congrArg (inFile path) ih
  | inLayer name cause ih => exact congrArg (inLayer name) ih
  | inObject label cause ih => exact congrArg (inObject label) ih
  | _ => rfl

theorem places_rootCause (e : BakeError) : e.rootCause.places = [] := by
  induction e with
  | inFile path cause ih | inLayer path cause ih | inObject path cause ih => exact ih
  | _ => rfl

theorem places_inLayers (names : List String) (cause : BakeError) :
    (names.foldr inLayer cause).places = names.map .layer ++ cause.places := by
  induction names with
  | nil => rfl
  | cons name names ih => exact congrArg (.layer name :: ·) ih

theorem rootCause_inLayers (names : List String) (cause : BakeError) :
    (names.foldr inLayer cause).rootCause = cause.rootCause := by
  induction names with
  | nil => rfl
  | cons name names ih => exact ih

end BakeError

variable {host : Host σ} {answers : Answers} {settings : BakeSettings} {document path : String}
  {s : σ} {map ready : Map} {e : BakeError}

/-- A compilation that starts in state `s` comes as far as the layers, with the map `ready`, and fails
there. -/
def FailsInLayers (host : Host σ) (settings : BakeSettings) (document path : String) (s : σ)
    (map ready : Map) (e : BakeError) : Prop :=
  Map.parse document path = .ok map ∧ ∃ s₁ reached s₂,
    Assembly.prepare host settings map ((host.log .debug ("compiling map " ++ path)).run s).2 =
      (⟨ready, none⟩, s₁) ∧
    Assembly.allLayers host ready s₁ = (⟨reached, some e⟩, s₂)

theorem FailsInLayers.firstFails (h : FailsInLayers host settings document path s map ready e)
    (hhost : host.Gives answers) :
    ∃ names cause, e = cause.inLayers names ∧
      Layer.FirstFails answers ⟨map.order, ready.firstGids⟩ map.layers names cause := by
  obtain ⟨_, s₁, reached, s₂, hprepare, hlayers⟩ := h
  obtain ⟨hkept, horder⟩ := Assembly.layers_of_prepare (.of_eq hprepare)
  have hends := Assembly.layers_endsIn hhost ⟨ready.order, ready.firstGids⟩ ready.layers s₁
  have hfailure : (Assembly.allLayers host ready s₁).1.failure = some e := by rw [hlayers]
  rw [Assembly.allLayers] at hfailure
  rw [hkept, horder] at hends
  rw [hkept, horder] at hfailure
  obtain ⟨names, cause, hfirst, he⟩ :=
    Layer.firstFails_of_failureAmong (hends.symm.trans hfailure)
  exact ⟨names, cause, he, hfirst⟩

theorem compileMap_eq :
    (compileMap host settings document path).run.run s =
      (reporting host path (compileWith (Map.parse document path) (Map.assemble host settings)
        Map.write)).run.run ((host.log .debug ("compiling map " ++ path)).run s).2 :=
  Bake.bind_of_ok rfl

theorem FailsInLayers.run_compileWith (h : FailsInLayers host settings document path s map ready e) :
    ∃ s', (compileWith (Map.parse document path) (Map.assemble host settings) Map.write).run.run
      ((host.log .debug ("compiling map " ++ path)).run s).2 = (.error e, s') := by
  obtain ⟨hparse, s₁, reached, s₂, hprepare, hlayers⟩ := h
  have hassemble : map.assemble host settings
      ((host.log .debug ("compiling map " ++ path)).run s).2 = (⟨reached, some e⟩, s₂) := by
    rw [Assembly.assemble_eq_prepare, Work.andThen, hprepare]
    exact hlayers
  exact ⟨s₂, compileWith_of_failure Map.write hparse hassemble⟩

theorem FailsInLayers.run_compileMap (h : FailsInLayers host settings document path s map ready e)
    (he : e ≠ .decode .overflow) :
    ∃ s', (compileMap host settings document path).run.run s = (.error (.inFile path e), s') := by
  obtain ⟨s', hrun⟩ := h.run_compileWith
  exact ⟨_, compileMap_eq.trans (reporting_of_error hrun he)⟩

theorem FailsInLayers.run_of_overflow
    (h : FailsInLayers host settings document path s map ready (.decode .overflow)) :
    ∃ s', (compileMap host settings document path).run.run s = (.error (.decode .overflow), s') := by
  obtain ⟨s', hrun⟩ := h.run_compileWith
  exact ⟨s', compileMap_eq.trans (reporting_of_overflow hrun)⟩

/-- Over a host that answers by path, a compilation that fails in the layers ends with the error of
the first layer that fails by itself, in the groups around it and in the file. These places, and those
that the layer's own error shows in, are what `rootCause` takes away. Of any compilation that fails
the error is the last message, and the only one of its level; one that succeeds logs no error, and so
does one that overflow ends, for which no place is told. -/
theorem report_of_compileMap (hhost : host.Gives answers) (settings : BakeSettings)
    (document path : String) (s : σ) :
    (∀ map ready e, FailsInLayers host settings document path s map ready e →
      ∃ names cause s', Layer.FirstFails answers ⟨map.order, ready.firstGids⟩ map.layers names cause ∧
        (cause ≠ .decode .overflow →
          e = names.foldr .inLayer cause ∧
          (compileMap host settings document path).run.run s = (.error (.inFile path e), s') ∧
          (BakeError.inFile path e).places = .file path :: (names.map .layer ++ cause.places) ∧
          (BakeError.inFile path e).rootCause = cause.rootCause) ∧
        (cause = .decode .overflow →
          e = cause ∧ (compileMap host settings document path).run.run s = (.error e, s'))) ∧
    (∀ e s', (compileMap host settings document path).run.run s = (.error e, s') →
      e ≠ .decode .overflow →
      e.places.foldr BakeError.placed e.rootCause = e ∧ e.rootCause.places = [] ∧
      ∃ before, host.logs (fun _ host => compileMap host settings document path) s =
          before ++ [(.error, e.message)] ∧
        ∀ entry ∈ before, entry.1 ≠ .error) ∧
    (∀ s', (compileMap host settings document path).run.run s = (.error (.decode .overflow), s') →
      ∀ entry ∈ host.logs (fun _ host => compileMap host settings document path) s,
        entry.1 ≠ .error) ∧
    ∀ stream s', (compileMap host settings document path).run.run s = (.ok stream, s') →
      ∀ entry ∈ host.logs (fun _ host => compileMap host settings document path) s,
        entry.1 ≠ .error := by
  obtain ⟨before, hbefore, hlogs⟩ := logs_of_compileMap host settings document path s
  have hquiet (outcome : Except BakeError (List UInt8)) (s' : σ)
      (hrun : (compileMap host settings document path).run.run s = (outcome, s'))
      (hnone : reported outcome = []) :
      ∀ entry ∈ host.logs (fun _ host => compileMap host settings document path) s,
        entry.1 ≠ .error := by
    rw [hlogs, hrun, hnone, List.map_nil, List.append_nil]
    exact hbefore
  refine ⟨fun map ready e h => ?_, fun e s' hrun he => ?_, fun s' hrun => hquiet _ s' hrun rfl,
    fun stream s' hrun => hquiet _ s' hrun rfl⟩
  · obtain ⟨names, cause, rfl, hfirst⟩ := h.firstFails hhost
    by_cases hcause : cause = .decode .overflow
    · subst hcause
      rw [BakeError.inLayers_overflow] at h ⊢
      obtain ⟨s', hrun⟩ := h.run_of_overflow
      exact ⟨names, _, s', hfirst, fun hne => absurd rfl hne, fun _ => ⟨rfl, hrun⟩⟩
    · rw [BakeError.inLayers_of_ne hcause] at h ⊢
      obtain ⟨s', hrun⟩ := h.run_compileMap (BakeError.foldr_inLayer_ne hcause names)
      refine ⟨names, cause, s', hfirst, fun _ => ⟨rfl, hrun, ?_, ?_⟩, fun heq => absurd heq hcause⟩
      · rw [BakeError.places, BakeError.places_inLayers]
      · exact BakeError.rootCause_inLayers names cause
  · rw [hrun, reported_of_ne he] at hlogs
    exact ⟨e.foldr_places, e.places_rootCause, before, hlogs, hbefore⟩

namespace LostGem

open Xml

def level : String :=
  "<map><group name=\"cave\"><imagelayer name=\"sky\"/><objectgroup name=\"loot\">" ++
  "<object id=\"1\"/><object name=\"gem\" template=\"gem.tx\"/></objectgroup></group></map>"

def tokens : List Token :=
  [.opening ⟨"", "map"⟩ [] false, .opening ⟨"", "group"⟩ [(⟨"", "name"⟩, "cave")] false,
   .opening ⟨"", "imagelayer"⟩ [(⟨"", "name"⟩, "sky")] true,
   .opening ⟨"", "objectgroup"⟩ [(⟨"", "name"⟩, "loot")] false,
   .opening ⟨"", "object"⟩ [(⟨"", "id"⟩, "1")] true,
   .opening ⟨"", "object"⟩ [(⟨"", "name"⟩, "gem"), (⟨"", "template"⟩, "gem.tx")] true,
   .closing ⟨"", "objectgroup"⟩, .closing ⟨"", "group"⟩, .closing ⟨"", "map"⟩]

def root : Node :=
  .element "map" []
    [.element "group" [("name", "cave")]
      [.element "imagelayer" [("name", "sky")] [],
       .element "objectgroup" [("name", "loot")]
        [.element "object" [("id", "1")] [],
         .element "object" [("name", "gem"), ("template", "gem.tx")] []]]]

def plain : Object := { id := some 1 }

def gem : Object := { name := some "gem", template := some "gem.tx" }

def parsed : Map where
  layers := [.group { name := "cave" }
    [.image { name := "sky" } {}, .objects { name := "loot" } [plain, gem]]]

theorem parse_level : Map.parse level "level.tmx" = .ok parsed := by
  have htokens : Reads level tokens := by decide +kernel
  have hmap : Document.map (Path.parent "level.tmx") root = .ok parsed := by
    with_unfolding_all rfl
  rw [Map.parse, Document.root, htokens.parse? rfl]
  exact hmap

def empty : FileTree := ⟨[], []⟩

def given : Answers := .ofTexts empty.readText empty.image

theorem failure_plain (around : Surroundings) : plain.failure? given around = none := by
  have hresolution : Object.Resolution (Assembly.templates given.host around).fetch [] plain ()
      ⟨plain, none⟩ () := .plain _ _ _ rfl
  rw [Object.failure?, Object.resolveInPlace, hresolution.resolveFrom?_eq, Option.getD_some]

theorem failure_gem (around : Surroundings) :
    gem.failure? given around = some (.missing "gem.tx" .file) := by
  have hanswer : given.object around.firstGids "gem.tx" = .error (.missing "gem.tx" .file) := by
    rw [Answers.object]
    with_unfolding_all rfl
  have hfetch : (((Assembly.templates given.host around).fetch "gem.tx").run.run ()) =
      (.error (.missing "gem.tx" .file), ()) :=
    Prod.ext ((Assembly.templates_answers given.host_gives "gem.tx" ()).trans hanswer) rfl
  have hresolution := Object.Resolution.unfetched [] gem () "gem.tx" _ () rfl List.not_mem_nil hfetch
  rw [Object.failure?, Object.resolveInPlace, hresolution.resolveFrom?_eq, Option.getD_some]

def failure : BakeError :=
  .inLayer "cave" (.inLayer "loot" (.inObject "gem" (.missing "gem.tx" .file)))

theorem failureAmong_parsed (around : Surroundings) :
    Layer.failureAmong given around (Layer.leavesAmong parsed.layers) = some failure := by
  have hitems : Layer.failure? given around (.objects { name := "loot" } [plain, gem]) =
      some (.inObject "gem" (.missing "gem.tx" .file)) := by
    rw [Layer.failure?, List.findSome?_cons, failure_plain, Option.map_none, List.findSome?_cons,
      failure_gem]
    rfl
  have hsky : Layer.failure? given around (.image { name := "sky" } {}) = none := rfl
  change Layer.failureAmong given around
    [(["cave", "sky"], .image { name := "sky" } {}),
      (["cave", "loot"], .objects { name := "loot" } [plain, gem])] = _
  simp only [Layer.failureAmong, List.findSome?_cons, hsky, hitems]
  rfl

def settled : Map := { parsed with background := some .black }

theorem failsInLayers (s : List String) :
    FailsInLayers empty.host {} level "level.tmx" s parsed settled failure := by
  have hchecked : parsed.checkGids true = .ok () := by
    change Tileset.checkNeighbours ([].mergeSort _) = .ok ()
    rw [List.mergeSort_nil]
    rfl
  have hsettled : Assembly.settle (σ := List String) {} parsed = Work.done settled :=
    Assembly.settle_of_checked hchecked
  have hready : Assembly.prepare empty.host {} parsed s = (⟨settled, none⟩, s) := by
    change (Assembly.settle {} parsed).andThen _ s = _
    rw [hsettled]
    rfl
  have hfailed : (Assembly.allLayers empty.host settled s).1.failure = some failure :=
    (Assembly.layers_endsIn empty.host_gives ⟨.rightDown, []⟩ parsed.layers s).trans
      (failureAmong_parsed _)
  rcases hlayers : Assembly.allLayers empty.host settled s with ⟨⟨reached, failed⟩, s₂⟩
  rw [hlayers] at hfailed
  obtain rfl : failed = some failure := hfailed
  exact ⟨parse_level, s, reached, s₂, hready, hlayers⟩

/-- The gem is lost: its template is in no file. -/
theorem report_of_compileMap_sample :
    empty.host.Gives given ∧
    FailsInLayers empty.host {} level "level.tmx" [] parsed settled failure ∧
    ∃ names cause s' before,
      Layer.FirstFails given ⟨parsed.order, settled.firstGids⟩ parsed.layers names cause ∧
      failure = names.foldr .inLayer cause ∧
      (compileMap empty.host {} level "level.tmx").run.run [] =
        (.error (.inFile "level.tmx" failure), s') ∧
      empty.host.logs (fun _ host => compileMap host {} level "level.tmx") [] =
        before ++ [(.error, "level.tmx: layer 'cave': layer 'loot': object gem: " ++
          "missing reference 'gem.tx': file not found")] := by
  obtain ⟨hlayers, herror, _⟩ := report_of_compileMap empty.host_gives {} level "level.tmx" []
  obtain ⟨names, cause, s', hfirst, hreport, hoverflow⟩ := hlayers _ _ _ (failsInLayers [])
  have hcause : cause ≠ .decode .overflow := by
    intro hcause
    cases (hoverflow hcause).1.trans hcause
  obtain ⟨he, hrun, _, _⟩ := hreport hcause
  obtain ⟨_, _, before, hlogs, _⟩ := herror _ _ hrun (fun h => nomatch h)
  exact ⟨empty.host_gives, failsInLayers [], names, cause, s', before, hfirst, he, hrun, hlogs⟩

end LostGem

end TileKiln
