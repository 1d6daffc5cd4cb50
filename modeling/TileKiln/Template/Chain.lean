import TileKiln.Assembly.Work
import TileKiln.Template.Basic

namespace TileKiln

structure TemplateSource (σ : Type) where
  fetch : String → Bake σ Object

namespace Object

variable {σ : Type}

/-- Resolves an object whose chain has come through `chain`, the nearest template first. Templates
that never end have no result. -/
def resolveFrom? (fetch : String → Bake σ Object) (chain : List String) (object : Object) (s : σ) :
    Option (Progress Object × σ) :=
  match object.template with
  | none => some (Work.done object s)
  | some reference =>
    if reference ∈ chain then some (Work.fail object (.templateCycle (chain ++ [reference])) s)
    else
      match (fetch reference).run.run s with
      | (.error e, s) => some (Work.fail object e s)
      | (.ok template, s) => do
        match ← template |>.resolveFrom? fetch (chain ++ [reference]) s with
        | (⟨template, none⟩, s) => some (Work.done (object.inherit template) s)
        | (⟨_, some e⟩, s) => some (Work.fail object e s)
partial_fixpoint

/-- Fills the unset fields of an object from its template, that of its template, and so on. -/
def resolveInPlace (source : TemplateSource σ) (object : Object) : Work σ Object := fun s =>
  (resolveFrom? source.fetch [] object s).getD
    (Work.fail object (.templateChain object.template.toList) s)

def resolve (source : TemplateSource σ) (object : Object) : Bake σ Object :=
  (object.resolveInPlace source).toBake

end Object

def TemplateSource.ofList (templates : List (String × Object)) : TemplateSource (List String) where
  fetch reference := do
    modify (· ++ [reference])
    match templates.lookup reference with
    | some object => return object
    | none => throw (.missing reference .template)

end TileKiln
