import TileKiln.Error

namespace TileKiln

/-- A part of a graph as far as work on it got, and what stopped the work, if anything did. -/
structure Progress (α : Type) where
  value : α
  failure : Option BakeError := none

/-- Work on a part, over the state of a host. -/
abbrev Work (σ α : Type) := σ → Progress α × σ

namespace Work

variable {σ α β : Type}

def done (a : α) : Work σ α := fun s => (⟨a, none⟩, s)

def fail (a : α) (e : BakeError) : Work σ α := fun s => (⟨a, some e⟩, s)

def step (a : α) (next : Bake σ α) : Work σ α := fun s =>
  match next.run.run s with
  | (.ok b, s) => done b s
  | (.error e, s) => fail a e s

def andThen (work : Work σ α) (next : α → Work σ α) : Work σ α := fun s =>
  match work s with
  | (⟨a, none⟩, s) => next a s
  | (⟨a, some e⟩, s) => fail a e s

def part (whole : β → α) (work : Work σ β) : Work σ α := fun s =>
  match work s with
  | (⟨b, failure⟩, s) => (⟨whole b, failure⟩, s)

def within (place : BakeError → BakeError) (work : Work σ α) : Work σ α := fun s =>
  match work s with
  | (⟨a, failure⟩, s) => (⟨a, failure.map (BakeError.within place)⟩, s)

def cons (first : Work σ α) (others : List α) (next : Work σ (List α)) : Work σ (List α) := fun s =>
  match first s with
  | (⟨a, none⟩, s) => part (a :: ·) next s
  | (⟨a, some e⟩, s) => fail (a :: others) e s

def each (work : α → Work σ α) : List α → Work σ (List α)
  | [] => done []
  | a :: as => cons (work a) as (each work as)

def each? (work : α → Work σ α) : Option α → Work σ (Option α)
  | none => done none
  | some a => part some (work a)

def toBake (work : Work σ α) : Bake σ α := ExceptT.mk fun s =>
  match work s with
  | (⟨a, none⟩, s) => (.ok a, s)
  | (⟨_, some e⟩, s) => (.error e, s)

end Work

end TileKiln
