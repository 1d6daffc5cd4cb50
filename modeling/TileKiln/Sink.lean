import TileKiln.Message
import TileKiln.Single.Basic
import TileKiln.Word

namespace TileKiln

inductive WriteError
  | sinkFull
  | unresolvedTileset (firstGid : UInt32) (source : String)
  | lengthOverflow (length : Nat)
deriving DecidableEq, Repr, Inhabited

def WriteError.message : WriteError → String
  | sinkFull => "failed to write baked data: " ++ Message.detail
  | unresolvedTileset firstGid source =>
    "tileset '" ++ source ++ "' (first gid " ++ toString firstGid.toNat ++ ") was never loaded"
  | lengthOverflow length => s!"length {length} does not fit in a u32"

/-- What has been written so far, and how many bytes are accepted in all if not arbitrarily many. -/
structure Sink where
  bytes : Array UInt8 := #[]
  capacity : Option Nat := none
deriving DecidableEq, Repr, Inhabited

abbrev Writer := ExceptT WriteError (StateM Sink)

/-- A failure ends a computation with state, and keeps the state that it has reached. -/
theorem run_bind {ε σ α β : Type} (act : ExceptT ε (StateM σ) α) (next : α → ExceptT ε (StateM σ) β)
    (s : σ) :
    (act >>= next) s =
      match act s with
      | (.ok a, s) => next a s
      | (.error e, s) => (.error e, s) := by
  change StateT.bind (m := Id) act (ExceptT.bindCont next) s = _
  simp only [StateT.bind]
  rcases act s with ⟨_ | _, _⟩ <;> rfl

namespace Sink

def written (sink : Sink) : List UInt8 := sink.bytes.toList

def room (sink : Sink) (count : Nat) : Nat :=
  match sink.capacity with
  | none => count
  | some capacity => min count (capacity - sink.bytes.size)

end Sink

namespace Writer

variable {α : Type}

def put (bytes : List UInt8) : Writer Unit := fun sink =>
  let room := sink.room bytes.length
  let sink' := { sink with bytes := sink.bytes ++ bytes.take room }
  if bytes.length ≤ room then (.ok (), sink') else (.error .sinkFull, sink')

def byte (b : UInt8) : Writer Unit := put [b]

def word (w : UInt32) : Writer Unit := put (Word.bytes32 w)

def int (i : Int32) : Writer Unit := word i.toUInt32

def single (x : Single) : Writer Unit := word x.bits

def bool (b : Bool) : Writer Unit := byte b.toUInt8

def length (n : Nat) : Writer Unit :=
  if n < UInt32.size then word (UInt32.ofNat n) else throw (.lengthOverflow n)

def text (s : String) : Writer Unit := do
  length s.utf8ByteSize
  put s.toUTF8.data.toList

def each (write : α → Writer Unit) : List α → Writer Unit
  | [] => return ()
  | a :: as => do
    write a
    each write as

def table (write : α → Writer Unit) (records : List α) : Writer Unit := do
  length records.length
  each write records

def bytes (write : Writer Unit) : Except WriteError (List UInt8) :=
  match write {} with
  | (.ok (), sink) => .ok sink.written
  | (.error e, _) => .error e

theorem each_map {β : Type} (write : α → Writer Unit) (f : β → α) (bs : List β) :
    each write (bs.map f) = each (fun b => write (f b)) bs := by
  induction bs with
  | nil => rfl
  | cons b bs ih => rw [List.map_cons, each, each, ih]

theorem table_map {β : Type} (write : α → Writer Unit) (f : β → α) (bs : List β) :
    table write (bs.map f) = table (fun b => write (f b)) bs := by
  rw [table, table, List.length_map, each_map]

end Writer

end TileKiln
