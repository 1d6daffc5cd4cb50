import Mathlib.Data.List.DropRight
import TileKiln.Proofs.AlikeHosts
import TileKiln.Proofs.Dependencies

namespace TileKiln.FileTree

inductive Task
  | compileMap (settings : BakeSettings) (document path : String)
  | compileTileset (document path : String)
  | loadTemplate (path : String)
  | loadTileset (path : String)
  | resolveImage (path : String)
  | addDependency (path : String)

inductive Step
  | perform (task : Task)
  | takeDependencies

inductive Result
  | stream (bytes : List UInt8)
  | template (template : Template)
  | tileset (tileset : Tileset)
  | image (reference : String)
  | done
  | dependencies (paths : List String)

def Task.run {σ : Type} (host : Host σ) : Task → Bake σ Result
  | compileMap settings document path => do
    return .stream (← TileKiln.compileMap host settings document path)
  | compileTileset document path => do return .stream (← TileKiln.compileTileset host document path)
  | loadTemplate path => do return .template (← host.loadTemplate path)
  | loadTileset path => do return .tileset (← host.loadTileset path)
  | resolveImage path => do return .image (← host.resolveImage path)
  | addDependency path => do
    host.addDependency path
    return .done

namespace Step

def isTask : Step → Bool
  | perform _ => true
  | takeDependencies => false

def run (tree : FileTree) : Step → Bake (List String) Result
  | perform task => task.run tree.host
  | takeDependencies => do return .dependencies (← FileTree.takeDependencies)

end Step

def outcome (tree : FileTree) (step : Step) (dependencies : List String) :
    Except BakeError Result :=
  ((step.run tree).run.run dependencies).1

def stepped (tree : FileTree) (dependencies : List String) (step : Step) : List String :=
  ((step.run tree).run.run dependencies).2

def session (tree : FileTree) (steps : List Step) : List String :=
  steps.foldl tree.stepped []

variable {tree : FileTree}

theorem addDependency_of_mem {path : String} {dependencies : List String}
    (h : path ∈ dependencies) : addDependency path dependencies = dependencies :=
  if_pos h

theorem addDependency_of_not_mem {path : String} {dependencies : List String}
    (h : path ∉ dependencies) : addDependency path dependencies = dependencies ++ [path] :=
  if_neg h

theorem addDependencies_nil (paths : List String) : addDependencies paths [] = paths.eraseDups := by
  induction paths using List.reverseRecOn with
  | nil => rfl
  | append_singleton paths path ih =>
      rw [addDependencies_append, ih, List.eraseDups_append]
      change addDependency path paths.eraseDups = _
      by_cases hpath : path ∈ paths
      · rw [addDependency_of_mem (List.mem_eraseDups.2 hpath)]
        simp [List.removeAll, hpath]
      · rw [addDependency_of_not_mem (mt List.mem_eraseDups.1 hpath)]
        simp [List.removeAll, hpath, List.eraseDups_cons]

theorem nodup_addDependencies {paths dependencies : List String} (h : dependencies.Nodup) :
    (addDependencies paths dependencies).Nodup := by
  induction paths generalizing dependencies with
  | nil => exact h
  | cons path paths ih =>
      have hadded : (addDependency path dependencies).Nodup := by
        by_cases hpath : path ∈ dependencies
        · rwa [addDependency_of_mem hpath]
        · rw [addDependency_of_not_mem hpath, ← List.concat_eq_append]
          exact h.concat hpath
      exact ih hadded

/-- What is recorded on a fresh host is what is recorded after `before`. -/
def Continues (before shared fresh : List String) : Prop := shared = addDependencies fresh before

theorem alike_addDependency (tree : FileTree) (before : List String) (path : String) :
    Alike (Continues before) (tree.host.addDependency path) (tree.host.addDependency path) := by
  rintro _ fresh rfl
  refine ⟨(), _, _, rfl, rfl, ?_⟩
  change addDependency path (addDependencies fresh before) =
    addDependencies (addDependency path fresh) before
  by_cases hpath : path ∈ fresh
  · rw [addDependency_of_mem hpath, addDependency_of_mem (mem_addDependencies.2 (.inl hpath))]
  · rw [addDependency_of_not_mem hpath, addDependencies_append]
    rfl

theorem alike_loadDocument {α : Type} (tree : FileTree) (before : List String)
    (parse : (document path : String) → Document.Result α) (path : String) :
    Alike (Continues before)
      (loadDocument tree.host.readText tree.host.addDependency parse path)
      (loadDocument tree.host.readText tree.host.addDependency parse path) := by
  refine Bake.alike_bind (Bake.alike_liftExcept (tree.readText path)) fun document => ?_
  refine Bake.alike_bind (Bake.alike_lift (alike_addDependency tree before path)) fun _ => ?_
  cases parse document path with
  | error e => exact alike_const (Except.error (BakeError.inFile path (.document e)))
  | ok a => exact alike_const (Except.ok a)

theorem alike_resolveImage (tree : FileTree) (before : List String) (path : String) :
    Alike (Continues before) (tree.host.resolveImage path) (tree.host.resolveImage path) := by
  change Alike _ (if tree.isFile path then _ else _ : Bake (List String) String)
    (if tree.isFile path then _ else _ : Bake (List String) String)
  split
  next =>
    exact Bake.alike_bind (Bake.alike_lift (alike_addDependency tree before path)) fun _ =>
      alike_const (Except.ok path)
  next => exact alike_const (Except.error (BakeError.missing path .image))

theorem host_alike (tree : FileTree) (before : List String) :
    tree.host.Alike (Continues before) tree.host where
  tileset path := alike_loadDocument tree before Tileset.parse path
  template path := alike_loadDocument tree before Template.parse path
  image path := alike_resolveImage tree before path
  dependency path := alike_addDependency tree before path
  log _ _ := alike_const ()

theorem Task.alike_run {σ τ : Type} {R : σ → τ → Prop} {host : Host σ} {host' : Host τ}
    (h : host.Alike R host') (task : Task) : Alike R (task.run host) (task.run host') := by
  cases task with
  | compileMap settings document path =>
      exact Bake.alike_bind (alike_compileMap h settings document path) fun stream =>
        alike_const (Except.ok (Result.stream stream))
  | compileTileset document path =>
      exact Bake.alike_bind (alike_compileTileset h document path) fun stream =>
        alike_const (Except.ok (Result.stream stream))
  | loadTemplate path =>
      exact Bake.alike_bind (h.template path) fun template =>
        alike_const (Except.ok (Result.template template))
  | loadTileset path =>
      exact Bake.alike_bind (h.tileset path) fun tileset =>
        alike_const (Except.ok (Result.tileset tileset))
  | resolveImage path =>
      exact Bake.alike_bind (h.image path) fun reference =>
        alike_const (Except.ok (Result.image reference))
  | addDependency path =>
      exact Bake.alike_bind (Bake.alike_lift (h.dependency path)) fun _ =>
        alike_const (Except.ok Result.done)

/-- A task ends as it does alone, and adds to the dependencies what it would record alone. -/
theorem perform_eq_alone (task : Task) (dependencies : List String) :
    tree.outcome (.perform task) dependencies = tree.outcome (.perform task) [] ∧
      tree.stepped dependencies (.perform task) =
        addDependencies (tree.stepped [] (.perform task)) dependencies := by
  have hfresh : Continues dependencies dependencies [] := rfl
  obtain ⟨outcome, shared, fresh, hshared, halone, hcontinues⟩ :=
    Task.alike_run (tree.host_alike dependencies) task hfresh
  have hshared : ((Step.perform task).run tree).run.run dependencies = (outcome, shared) := hshared
  have halone : ((Step.perform task).run tree).run.run [] = (outcome, fresh) := halone
  rw [FileTree.outcome, FileTree.outcome, stepped, stepped, hshared, halone]
  exact ⟨rfl, hcontinues⟩

theorem session_concat (steps : List Step) (step : Step) :
    tree.session (steps ++ [step]) = tree.stepped (tree.session steps) step :=
  List.foldl_concat ..

/-- The dependencies of a session are those of the tasks since they were taken last. -/
theorem session_eq (steps : List Step) :
    tree.session steps =
      addDependencies ((steps.rtakeWhile Step.isTask).flatMap (tree.stepped [])) [] := by
  induction steps using List.reverseRecOn with
  | nil => rfl
  | append_singleton steps step ih =>
      rw [session_concat, List.rtakeWhile_concat]
      cases step with
      | perform task =>
          rw [(perform_eq_alone task _).2, ih, ← addDependencies_append]
          simp [Step.isTask]
      | takeDependencies => rfl

/-- In a session on one host, whatever has been asked of it before and whether it has failed or not,
a task ends as it does on a fresh host. The dependencies are those that the tasks since the last
taking would each record alone, every one where it came first; and these are what is taken. -/
theorem session_independent (tree : FileTree) (before : List Step) :
    (∀ task, tree.outcome (.perform task) (tree.session before) =
      tree.outcome (.perform task) []) ∧
    (tree.session before).Nodup ∧
    tree.session before = ((before.rtakeWhile Step.isTask).flatMap (tree.stepped [])).eraseDups ∧
    tree.outcome .takeDependencies (tree.session before) =
      .ok (.dependencies (tree.session before)) := by
  refine ⟨fun task => (perform_eq_alone task _).1, ?_, ?_, rfl⟩
  · rw [session_eq]
    exact nodup_addDependencies List.nodup_nil
  · rw [session_eq, addDependencies_nil]

/-- What is taken from a host is not what would be taken from a fresh one. -/
theorem taken_of_session :
    sampleTree.outcome .takeDependencies
        (sampleTree.session [.perform (.resolveImage "sets/cave.png")]) =
      .ok (.dependencies ["sets/cave.png"]) ∧
    sampleTree.outcome .takeDependencies [] = .ok (.dependencies []) := by
  have hsession : sampleTree.session [.perform (.resolveImage "sets/cave.png")] =
      ["sets/cave.png"] := by decide +kernel
  rw [hsession]
  exact ⟨rfl, rfl⟩

end TileKiln.FileTree
