import TileKiln.Proofs.LoadedImages
import TileKiln.Proofs.RecordedPaths

namespace TileKiln.Asset

inductive Registration
  | read (path : String)
  | load (path : String)
deriving DecidableEq

namespace Registration

def byName (path : String) : Registration :=
  if isDocument path then read path else load path

def perform (tree : FileTree) (images : Table String String) :
    Registration → Except LoadError (Table String String)
  | read path => if tree.isFile path then .ok images else .error .dependency
  | load path => .ok (images.insert (Path.imageReference path) path)

end Registration

def registrations (dependencies : List String) : List Registration :=
  dependencies.map Registration.byName

variable {tree : FileTree} {calls : List Call} {dependencies : List String} {p : String}

theorem register_eq_foldlM (tree : FileTree) (dependencies : List String)
    (images : Table String String) :
    register tree dependencies images =
      (registrations dependencies).foldlM (Registration.perform tree) images := by
  induction dependencies generalizing images with
  | nil => rfl
  | cons path dependencies ih =>
      change _ = (Registration.byName path :: registrations dependencies).foldlM _ images
      rw [List.foldlM_cons, register, Registration.byName]
      cases isDocument path with
      | true =>
          cases hfile : tree.isFile path with
          | true => simpa [Registration.perform, hfile, bind, Except.bind] using ih images
          | false => simp [Registration.perform, hfile, bind, Except.bind]
      | false => exact ih _

theorem isDocument_iff : isDocument p ↔ p.endsWith ".tsx" ∨ p.endsWith ".tx" := by
  rw [isDocument, Bool.or_eq_true]

theorem byName_eq_read_iff {q : String} :
    Registration.byName q = .read p ↔ isDocument q ∧ q = p := by
  cases hdocument : isDocument q <;> simp [Registration.byName, hdocument]

theorem byName_eq_load_iff {q : String} :
    Registration.byName q = .load p ↔ isDocument q = false ∧ q = p := by
  cases hdocument : isDocument q <;> simp [Registration.byName, hdocument]

theorem read_mem_registrations_iff :
    .read p ∈ registrations dependencies ↔ p ∈ dependencies ∧ isDocument p := by
  simp only [registrations, List.mem_map, byName_eq_read_iff, exists_eq_right_right]

theorem load_mem_registrations_iff :
    .load p ∈ registrations dependencies ↔ p ∈ dependencies ∧ isDocument p = false := by
  simp only [registrations, List.mem_map, byName_eq_load_iff, exists_eq_right_right]

/-- How the paths that calls have used are registered: by their names, whatever they were used as. -/
structure GoesByName (tree : FileTree) (calls : List Call) (dependencies : List String) : Prop where
  steps : ∀ images, register tree dependencies images =
    (registrations dependencies).foldlM (Registration.perform tree) images
  either : ∀ p ∈ dependencies,
    .read p ∈ registrations dependencies ↔ .load p ∉ registrations dependencies
  documents : ∀ p ∈ calls.filterMap Call.document?, p ∈ dependencies ∧
    (.read p ∈ registrations dependencies ↔ p.endsWith ".tsx" ∨ p.endsWith ".tx")
  images : ∀ p ∈ calls.filterMap Call.image?, p ∈ dependencies ∧
    (.load p ∈ registrations dependencies ↔ ¬ (p.endsWith ".tsx" ∨ p.endsWith ".tx"))
  entries : ∀ table, register tree dependencies [] = .ok table →
    ∀ p, .load p ∈ registrations dependencies →
      p ∈ namesakes dependencies (Path.imageReference p) ∧
        table.get? (Path.imageReference p) =
          (namesakes dependencies (Path.imageReference p)).getLast?

theorem goesByName_of_records (h : tree.Records calls dependencies) :
    GoesByName tree calls dependencies where
  steps := register_eq_foldlM tree dependencies
  either p hp := by
    rw [read_mem_registrations_iff, load_mem_registrations_iff]
    simp [hp]
  documents p hp := by
    have hdependency := (h.recorded p).2 (.inl hp)
    refine ⟨hdependency, ?_⟩
    rw [read_mem_registrations_iff, isDocument_iff]
    exact and_iff_right hdependency
  images p hp := by
    have hdependency := (h.recorded p).2 (.inr (.inl hp))
    refine ⟨hdependency, ?_⟩
    rw [load_mem_registrations_iff, ← isDocument_iff, Bool.not_eq_true]
    exact and_iff_right hdependency
  entries table htable p hp := by
    obtain ⟨hdependency, hdocument⟩ := load_mem_registrations_iff.1 hp
    exact ⟨mem_namesakes.2 ⟨hdependency, hdocument, rfl⟩, get?_of_register htable _⟩

/-- A document that a bake has read is read again exactly if it is named as one, and an image that it
has resolved is loaded, with an entry of the table, exactly if it is not named as a document. -/
theorem goesByName_of_bake (tree : FileTree) (settings : BakeSettings) (document path : String)
    (stream : List UInt8) (dependencies : List String) :
    (tree.bakeMap settings document path = .ok (stream, dependencies) →
      GoesByName tree (tree.mapCalls settings document path) dependencies) ∧
    (tree.bakeTileset document path = .ok (stream, dependencies) →
      GoesByName tree (tree.tilesetCalls document path) dependencies) := by
  constructor
  · intro hbake
    exact goesByName_of_records (FileTree.records_of_bakeMap hbake)
  · intro hbake
    exact goesByName_of_records (FileTree.records_of_bakeTileset hbake)

namespace Registration

theorem calls_of_sampleTree :
    "sets/cave.tsx" ∈ (FileTree.sampleTree.mapCalls {} FileTree.sampleMap "level.tmx").filterMap
        Call.document? ∧
      "sets/cave.png" ∈ (FileTree.sampleTree.tilesetCalls FileTree.sampleTileset
        "sets/cave.tsx").filterMap Call.image? := by
  decide +kernel

/-- The map reads its tileset, and the tileset loads its image. -/
theorem goesByName_of_bake_sample :
    (∃ stream, FileTree.sampleTree.bakeMap {} FileTree.sampleMap "level.tmx" =
        .ok (stream, FileTree.sampleDependencies) ∧
      .read "sets/cave.tsx" ∈ registrations FileTree.sampleDependencies) ∧
    ∃ stream, FileTree.sampleTree.bakeTileset FileTree.sampleTileset "sets/cave.tsx" =
        .ok (stream, ["sets/cave.png"]) ∧
      .load "sets/cave.png" ∈ registrations ["sets/cave.png"] ∧
      ∀ images, register FileTree.sampleTree ["sets/cave.png"] [] = .ok images →
        images.get? "sets/cave" = some "sets/cave.png" := by
  obtain ⟨hmap, htileset⟩ := FileTree.sampleTree_bakes
  constructor
  · obtain ⟨⟨stream, _⟩, hbake, rfl⟩ := Option.map_eq_some_iff.1 hmap
    have hbake := ok_of_toOption hbake
    have hnames := (goesByName_of_bake _ _ _ _ _ _).1 hbake
    have hdocument : "sets/cave.tsx".endsWith ".tsx" := by decide +kernel
    exact ⟨stream, hbake, (hnames.documents _ calls_of_sampleTree.1).2.2 (.inl hdocument)⟩
  · obtain ⟨⟨stream, dependencies⟩, hbake, hdependencies⟩ := Option.map_eq_some_iff.1 htileset
    obtain rfl : dependencies = _ := hdependencies
    have hbake := ok_of_toOption hbake
    have hnames := (goesByName_of_bake _ {} _ _ _ _).2 hbake
    have himage : ¬ ("sets/cave.png".endsWith ".tsx" ∨ "sets/cave.png".endsWith ".tx") := by
      decide +kernel
    have hload := (hnames.images _ calls_of_sampleTree.2).2.2 himage
    refine ⟨stream, hbake, hload, ?_⟩
    intro images hregister
    have hlast : (namesakes ["sets/cave.png"] (Path.imageReference "sets/cave.png")).getLast? =
        some "sets/cave.png" := by decide +kernel
    exact (hnames.entries images hregister _ hload).2.trans hlast

end Registration

namespace MisnamedFiles

def levelDocument : String := "<map><tileset firstgid=\"1\" source=\"cave.xml\"/></map>"

def sampleTree : FileTree where
  files := [(["cave.xml"], "<tileset><image source=\"rock.tx\"/></tileset>".toUTF8.data.toList),
    (["rock.tx"], [1])]
  directories := []

theorem bake_sample :
    ((sampleTree.bakeMap {} levelDocument "level.tmx").toOption.bind fun (_, dependencies) =>
      (register sampleTree dependencies []).toOption.map fun images => (dependencies, images)) =
      some (["cave.xml", "rock.tx"], [("cave", "cave.xml")]) := by
  decide +kernel

theorem calls_sample :
    "cave.xml" ∈ (sampleTree.mapCalls {} levelDocument "level.tmx").filterMap Call.document? ∧
      "rock.tx" ∈ (sampleTree.mapCalls {} levelDocument "level.tmx").filterMap Call.image? := by
  decide +kernel

/-- The tileset is loaded as an image, and the image is read as a document, without an entry. -/
theorem registered_otherwise :
    ∃ stream images, sampleTree.bakeMap {} levelDocument "level.tmx" =
        .ok (stream, ["cave.xml", "rock.tx"]) ∧
      register sampleTree ["cave.xml", "rock.tx"] [] = .ok images ∧
      "cave.xml" ∈ (sampleTree.mapCalls {} levelDocument "level.tmx").filterMap Call.document? ∧
      registrations ["cave.xml", "rock.tx"] = [.load "cave.xml", .read "rock.tx"] ∧
      "rock.tx" ∈ (sampleTree.mapCalls {} levelDocument "level.tmx").filterMap Call.image? ∧
      images.get? (Path.imageReference "cave.xml") = some "cave.xml" ∧
      images.get? (Path.imageReference "rock.tx") = none := by
  obtain ⟨⟨stream, dependencies⟩, hbake, hview⟩ := Option.bind_eq_some_iff.1 bake_sample
  obtain ⟨images, hregister, hview⟩ := Option.map_eq_some_iff.1 hview
  cases hview
  exact ⟨stream, _, ok_of_toOption hbake, ok_of_toOption hregister, calls_sample.1,
    by decide +kernel, calls_sample.2, by decide +kernel, by decide +kernel⟩

end MisnamedFiles

end TileKiln.Asset
