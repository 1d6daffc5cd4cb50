import TileKiln.Asset.Load
import TileKiln.Proofs.CompileCalls

namespace TileKiln

def Call.dependency? : Call → Option String
  | tileset path _ | template path _ | image path _ | dependency path => some path
  | log _ _ => none

namespace FileTree

variable {α : Type} {tree other : FileTree} {call : Call} {calls : List Call}
  {dependencies dependencies' : List String}

def addDependencies (paths dependencies : List String) : List String :=
  paths.foldl (fun dependencies path => addDependency path dependencies) dependencies

theorem mem_addDependency {path added : String} :
    path ∈ addDependency added dependencies ↔ path = added ∨ path ∈ dependencies := by
  rw [addDependency]
  split
  next hadded =>
    constructor
    · exact .inr
    · rintro (rfl | hpath)
      · exact hadded
      · exact hpath
  next => rw [List.mem_append, List.mem_singleton, or_comm]

theorem mem_addDependencies {path : String} {paths : List String} :
    path ∈ addDependencies paths dependencies ↔ path ∈ paths ∨ path ∈ dependencies := by
  induction paths generalizing dependencies with
  | nil => simp [addDependencies]
  | cons added paths ih =>
      have hrest : path ∈ addDependencies paths (addDependency added dependencies) ↔ _ := ih
      rw [mem_addDependency] at hrest
      rw [List.mem_cons, or_assoc, or_left_comm, ← hrest]
      rfl

theorem addDependencies_append (front back : List String) :
    addDependencies (front ++ back) dependencies =
      addDependencies back (addDependencies front dependencies) :=
  List.foldl_append

theorem readText_eq_ok_iff {path text : String} :
    tree.readText path = .ok text ↔ tree.text? path = some text := by
  rw [readText, text?]
  cases tree.find path with
  | file content => cases hcontent : String.fromUTF8? content.toByteArray <;> simp [hcontent]
  | directory => simp
  | missing => simp
  | blocked => simp

def Offers (tree : FileTree) : Call → Prop
  | .tileset path answer =>
    ∃ text, tree.text? path = some text ∧ Tileset.parse text path = .ok answer
  | .template path answer =>
    ∃ text, tree.text? path = some text ∧ Template.parse text path = .ok answer
  | .image path answer => tree.isFile path ∧ answer = path
  | .dependency _ | .log _ _ => True

/-- A document is recorded once its file is read, whether it can be parsed or not. -/
theorem run_loadDocument (tree : FileTree) (parse : (document path : String) → Document.Result α)
    (path : String) (dependencies : List String) :
    (loadDocument tree.host.readText tree.host.addDependency parse path).run.run dependencies =
      match tree.readText path with
      | .error e => (.error e, dependencies)
      | .ok text =>
        ((parse text path).mapError fun e => .inFile path (.document e),
          addDependency path dependencies) := by
  have hread : tree.host.readText path dependencies = (tree.readText path, dependencies) := by
    change (liftExcept (tree.readText path) : Bake (List String) String) dependencies = _
    cases tree.readText path <;> rfl
  change loadDocument tree.host.readText tree.host.addDependency parse path dependencies = _
  rw [loadDocument, run_bind, hread]
  cases tree.readText path with
  | error e => rfl
  | ok text =>
      dsimp only
      cases parse text path <;> rfl

theorem loadDocument_eq_ok_iff {parse : (document path : String) → Document.Result α}
    {path : String} {a : α} :
    (loadDocument tree.host.readText tree.host.addDependency parse path).run.run dependencies =
        (.ok a, dependencies') ↔
      (∃ text, tree.text? path = some text ∧ parse text path = .ok a) ∧
        dependencies' = addDependency path dependencies := by
  rw [run_loadDocument]
  simp only [← readText_eq_ok_iff]
  constructor
  · intro h
    split at h
    next => cases h
    next text htext =>
      cases hparse : parse text path with
      | error e =>
          rw [hparse] at h
          cases h
      | ok b =>
          rw [hparse] at h
          cases h
          exact ⟨⟨text, htext, hparse⟩, rfl⟩
  · rintro ⟨⟨text, htext, hparse⟩, rfl⟩
    rw [htext]
    dsimp only
    rw [hparse]
    rfl

theorem serves_iff :
    tree.host.Serves call dependencies dependencies' ↔
      tree.Offers call ∧
        dependencies' = addDependencies ([call].filterMap Call.dependency?) dependencies := by
  cases call with
  | tileset path answer => exact loadDocument_eq_ok_iff
  | template path answer => exact loadDocument_eq_ok_iff
  | image path answer =>
      change ((if tree.isFile path then _ else _ : Bake (List String) String).run.run dependencies) = _
        ↔ _
      split
      next hfile =>
        constructor
        · intro h
          cases h
          exact ⟨⟨hfile, rfl⟩, rfl⟩
        · rintro ⟨⟨_, rfl⟩, rfl⟩
          rfl
      next hfile =>
        constructor
        · rintro ⟨⟩
        · rintro ⟨⟨hoffered, _⟩, _⟩
          exact absurd hoffered hfile
  | dependency path =>
      constructor
      · intro h
        exact ⟨trivial, congrArg Prod.snd h.symm⟩
      · rintro ⟨_, rfl⟩
        rfl
  | log level message =>
      constructor
      · intro h
        exact ⟨trivial, congrArg Prod.snd h.symm⟩
      · rintro ⟨_, rfl⟩
        rfl

theorem replays_iff :
    tree.host.Replays calls dependencies dependencies' ↔
      (∀ call ∈ calls, tree.Offers call) ∧
        dependencies' = addDependencies (calls.filterMap Call.dependency?) dependencies := by
  induction calls generalizing dependencies with
  | nil =>
      constructor
      · rintro ⟨⟩
        exact ⟨by simp, rfl⟩
      · rintro ⟨_, rfl⟩
        exact .nil _
  | cons call calls ih =>
      have hfirst : (call :: calls).filterMap Call.dependency? =
          [call].filterMap Call.dependency? ++ calls.filterMap Call.dependency? := by
        rw [← List.filterMap_append]
        rfl
      rw [List.forall_mem_cons, hfirst, addDependencies_append]
      constructor
      · intro h
        cases h with
        | cons _ _ _ d _ hcall hcalls =>
            obtain ⟨hoffered, rfl⟩ := serves_iff.1 hcall
            obtain ⟨hothers, rfl⟩ := ih.1 hcalls
            exact ⟨⟨hoffered, hothers⟩, rfl⟩
      · rintro ⟨⟨hoffered, hothers⟩, rfl⟩
        exact .cons call calls _ _ _ (serves_iff.2 ⟨hoffered, rfl⟩) (ih.2 ⟨hothers, rfl⟩)

/-- What `calls` found at the paths in `dependencies` is what the other tree has there: the same
text where a document was read, and a file where there was an image. -/
def Agrees (tree other : FileTree) (calls : List Call) (dependencies : List String) : Prop :=
  ∀ path ∈ dependencies,
    (path ∈ calls.filterMap Call.document? → other.text? path = tree.text? path) ∧
      (path ∈ calls.filterMap Call.image? → other.isFile path)

instance (calls : List Call) : Decidable (tree.Agrees other calls dependencies) :=
  inferInstanceAs (Decidable (∀ path ∈ dependencies, _ ∧ _))

theorem offers_of_agrees (hagrees : tree.Agrees other calls dependencies) (hcall : call ∈ calls)
    (hrecorded : ∀ path ∈ call.dependency?, path ∈ dependencies) (hoffers : tree.Offers call) :
    other.Offers call := by
  cases call with
  | tileset path answer =>
      obtain ⟨text, htext, hparse⟩ := hoffers
      have hdocument := (hagrees path (hrecorded path rfl)).1
        (List.mem_filterMap.2 ⟨_, hcall, rfl⟩)
      exact ⟨text, hdocument.trans htext, hparse⟩
  | template path answer =>
      obtain ⟨text, htext, hparse⟩ := hoffers
      have hdocument := (hagrees path (hrecorded path rfl)).1
        (List.mem_filterMap.2 ⟨_, hcall, rfl⟩)
      exact ⟨text, hdocument.trans htext, hparse⟩
  | image path answer =>
      have himage := (hagrees path (hrecorded path rfl)).2 (List.mem_filterMap.2 ⟨_, hcall, rfl⟩)
      exact ⟨himage, hoffers.2⟩
  | dependency | log => trivial

theorem bake_eq_ok_iff {compile : Bake (List String) (List UInt8)} {stream : List UInt8} :
    bake compile = .ok (stream, dependencies) ↔ compile.run.run [] = (.ok stream, dependencies) := by
  rw [bake]
  rcases compile.run.run [] with ⟨_ | _, _⟩
  · constructor <;> rintro ⟨⟩
  · constructor <;> rintro ⟨⟩ <;> rfl

/-- A bake over a tree that has what another one has found has the same result. -/
theorem bake_of_agrees {program : Hosted (List UInt8)} {told : List Call → List UInt8 → Prop}
    (h : Hosted.Recorded program told) {stream : List UInt8}
    (hbake : bake (program _ tree.host) = .ok (stream, dependencies))
    (hagrees : tree.Agrees other (tree.host.calls program []) dependencies) :
    bake (program _ other.host) = .ok (stream, dependencies) := by
  rw [bake_eq_ok_iff] at hbake ⊢
  obtain ⟨hreplays, _, hsame⟩ := h.of_run hbake
  obtain ⟨hoffers, hdependencies⟩ := replays_iff.1 hreplays
  refine hsame other.host (replays_iff.2 ⟨?_, hdependencies⟩)
  intro call hcall
  refine offers_of_agrees hagrees hcall ?_ (hoffers call hcall)
  intro path hpath
  rw [hdependencies, mem_addDependencies]
  exact .inl (List.mem_filterMap.2 ⟨call, hcall, hpath⟩)

def mapCalls (tree : FileTree) (settings : BakeSettings) (document path : String) : List Call :=
  tree.host.calls (fun _ host => compileMap host settings document path) []

def tilesetCalls (tree : FileTree) (document path : String) : List Call :=
  tree.host.calls (fun _ host => compileTileset host document path) []

/-- The dependencies are complete: where two trees agree on them, what bakes over the one bakes over
the other, with the same stream and the same dependencies. -/
theorem bake_eq_of_dependencies (tree other : FileTree) (settings : BakeSettings)
    (document path : String) (stream : List UInt8) (dependencies : List String) :
    (tree.bakeMap settings document path = .ok (stream, dependencies) →
      tree.Agrees other (tree.mapCalls settings document path) dependencies →
      other.bakeMap settings document path = .ok (stream, dependencies)) ∧
    (tree.bakeTileset document path = .ok (stream, dependencies) →
      tree.Agrees other (tree.tilesetCalls document path) dependencies →
      other.bakeTileset document path = .ok (stream, dependencies)) := by
  constructor
  · intro hbake hagrees
    exact bake_of_agrees (recorded_compileMap settings document path) hbake hagrees
  · intro hbake hagrees
    exact bake_of_agrees (recorded_compileTileset document path) hbake hagrees

def sampleMap : String := "<map><tileset firstgid=\"1\" source=\"sets/cave.tsx\"/></map>"

def sampleTileset : String := "<tileset><image source=\"cave.png\"/></tileset>"

def sampleTree : FileTree where
  files := [(["sets", "cave.tsx"], sampleTileset.toUTF8.toList), (["sets", "cave.png"], [1])]
  directories := []

def sampleOther : FileTree where
  files := [(["sets", "cave.png"], [2, 3]), (["sets", "cave.tsx"], sampleTileset.toUTF8.toList),
    (["sets", "cave.tx"], [])]
  directories := []

def sampleDependencies : List String := ["sets/cave.tsx", "sets/cave.png"]

theorem sampleTree_bakes :
    (sampleTree.bakeMap {} sampleMap "level.tmx").toOption.map (·.2) = some sampleDependencies ∧
      (sampleTree.bakeTileset sampleTileset "sets/cave.tsx").toOption.map (·.2) =
        some ["sets/cave.png"] := by
  decide +kernel

theorem sampleTree_agrees :
    sampleTree.Agrees sampleOther (sampleTree.mapCalls {} sampleMap "level.tmx")
        sampleDependencies ∧
      sampleTree.Agrees sampleOther (sampleTree.tilesetCalls sampleTileset "sets/cave.tsx")
        ["sets/cave.png"] := by
  decide +kernel

/-- A map and its tileset, baked before and after their picture has been painted anew. -/
theorem bake_eq_of_dependencies_sample :
    (∃ stream, sampleTree.bakeMap {} sampleMap "level.tmx" = .ok (stream, sampleDependencies) ∧
      sampleOther.bakeMap {} sampleMap "level.tmx" = .ok (stream, sampleDependencies)) ∧
    ∃ stream, sampleTree.bakeTileset sampleTileset "sets/cave.tsx" = .ok (stream, ["sets/cave.png"]) ∧
      sampleOther.bakeTileset sampleTileset "sets/cave.tsx" = .ok (stream, ["sets/cave.png"]) := by
  obtain ⟨hmap, htileset⟩ := sampleTree_bakes
  constructor
  · obtain ⟨⟨stream, _⟩, hbake, rfl⟩ := Option.map_eq_some_iff.1 hmap
    have hbake := ok_of_toOption hbake
    exact ⟨stream, hbake, (bake_eq_of_dependencies sampleTree sampleOther {} sampleMap "level.tmx"
      stream _).1 hbake sampleTree_agrees.1⟩
  · obtain ⟨⟨stream, dependencies⟩, hbake, hdependencies⟩ := Option.map_eq_some_iff.1 htileset
    obtain rfl : dependencies = _ := hdependencies
    have hbake := ok_of_toOption hbake
    exact ⟨stream, hbake, (bake_eq_of_dependencies sampleTree sampleOther {} sampleTileset
      "sets/cave.tsx" stream _).2 hbake sampleTree_agrees.2⟩

end FileTree

end TileKiln
