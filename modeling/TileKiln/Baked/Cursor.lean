import TileKiln.Baked.Tag
import TileKiln.Word

namespace TileKiln.Baked

/-- How deep group layers and child properties may nest, counted together. -/
def maxNesting : Nat := 64

inductive ReadError
  | unexpectedEnd (offset : Nat)
  | invalidTag (kind : TagKind) (tag : UInt8) (offset : Nat)
  | invalidUtf8 (offset : Nat)
  | trailingBytes (count : Nat)
  | tooDeep (offset : Nat)
deriving DecidableEq, Repr, Inhabited

def ReadError.message : ReadError → String
  | unexpectedEnd offset => s!"unexpected end of data at byte {offset}"
  | invalidTag kind tag offset =>
    "invalid " ++ kind.name ++ " tag " ++ toString tag.toNat ++ s!" at byte {offset}"
  | invalidUtf8 offset => s!"invalid UTF-8 in string at byte {offset}"
  | trailingBytes count => s!"{count} trailing bytes after the end of the stream"
  | tooDeep offset => s!"records nested deeper than {maxNesting} levels at byte {offset}"

/-- What is left of a stream, and how many bytes came before it. -/
structure Cursor where
  rest : List UInt8
  offset : Nat
deriving DecidableEq, Repr, Inhabited

abbrev Reader := StateT Cursor (Except ReadError)

namespace Reader

variable {α : Type}

def offset : Reader Nat := do
  return (← get).offset

def split? {β : Type} : Nat → List β → Option (List β × List β)
  | 0, bs => some ([], bs)
  | _ + 1, [] => none
  | count + 1, b :: bs => (split? count bs).map fun (front, back) => (b :: front, back)

def take (count : Nat) : Reader (List UInt8) := fun cursor =>
  match split? count cursor.rest with
  | some (front, back) => .ok (front, ⟨back, cursor.offset + count⟩)
  | none => .error (.unexpectedEnd cursor.offset)

def byte : Reader UInt8 := do
  return UInt8.ofNat (Word.value (← take 1))

def word : Reader UInt32 := do
  return Word.value32 (← take 4)

def int : Reader Int32 := do
  return (← word).toInt32

def single : Reader Single := do
  return ⟨← word⟩

def length : Reader Nat := do
  return (← word).toNat

def text : Reader String := do
  let count ← length
  let start ← offset
  let bytes ← take count
  match String.fromUTF8? bytes.toByteArray with
  | some text => return text
  | none => throw (.invalidUtf8 start)

def tagged (α : Type) [DecidableEq α] [Tagged α] : Reader α := do
  let start ← offset
  let tag ← byte
  match Tagged.ofTag? tag with
  | some value => return value
  | none => throw (.invalidTag (Tagged.kind α) tag start)

def times (read : Reader α) : Nat → Reader (List α)
  | 0 => return []
  | count + 1 => do
    let first ← read
    let others ← times read count
    return first :: others

def table (read : Reader α) : Reader (List α) := do
  times read (← length)

def tooDeep : Reader α := do
  throw (.tooDeep (← offset))

def run (read : Reader α) (stream : List UInt8) : Except ReadError α :=
  match read ⟨stream, 0⟩ with
  | .error e => .error e
  | .ok (value, cursor) =>
    if cursor.rest.isEmpty then .ok value else .error (.trailingBytes cursor.rest.length)

end Reader

end TileKiln.Baked
