import TileKiln.Layer
import TileKiln.Message
import TileKiln.Payload.Base64
import TileKiln.Payload.Container
import TileKiln.Text.Blank
import TileKiln.Text.Numeral
import TileKiln.Word

namespace TileKiln

inductive Encoding
  | inline
  | csv
  | base64
deriving DecidableEq, Repr, Inhabited

def Encoding.name : Encoding → String
  | inline => "inline"
  | csv => "csv"
  | base64 => "base64"

inductive Compression
  | none
  | gzip
  | zlib
deriving DecidableEq, Repr, Inhabited

def Compression.name : Compression → String
  | none => "None"
  | gzip => "Gzip"
  | zlib => "Zlib"

inductive DecodeError
  | unsupportedEncoding (tag : String)
  | unsupportedCompression (tag : String)
  | compressedText (compression : Compression) (encoding : Encoding)
  | badCell (index : Nat) (token : String)
  | sizeMismatch (expected actual : Nat)
  | payloadMismatch (encoding : Encoding)
  | badBase64
  | badCompression
  /-- None that a caller sees: arithmetic has left the words, which ends the program on the spot. -/
  | overflow
deriving DecidableEq, Repr, Inhabited

def DecodeError.message : DecodeError → String
  | unsupportedEncoding tag => "unsupported tile data encoding '" ++ tag ++ "'"
  | unsupportedCompression tag => "unsupported tile data compression '" ++ tag ++ "'"
  | compressedText compression encoding =>
    "unsupported tile data compression '" ++ compression.name ++ " with " ++ encoding.name ++
      " encoding'"
  | badCell index token => "invalid tile id '" ++ token ++ s!"' at cell {index}"
  | sizeMismatch expected actual => s!"decoded {actual} cells, expected {expected}"
  | payloadMismatch encoding => encoding.name ++ " tile data does not match its payload"
  | badBase64 => "invalid base64 tile data: " ++ Message.detail
  | badCompression => "failed to decompress tile data: " ++ Message.detail
  | overflow => "attempt to multiply with overflow"

namespace Encoding

def ofTag : Option String → Except DecodeError Encoding
  | .none => .ok inline
  | some "csv" => .ok csv
  | some "base64" => .ok base64
  | some tag => .error (.unsupportedEncoding tag)

end Encoding

namespace Compression

def ofTag : Option String → Except DecodeError Compression
  | .none => .ok none
  | some "gzip" => .ok gzip
  | some "zlib" => .ok zlib
  | some tag => .error (.unsupportedCompression tag)

end Compression

namespace TileData

def fields (text : String) : List (List Char) :=
  ((text.toList.splitOn ',').map Text.trim).filter (!·.isEmpty)

def cellsOfFields (index : Nat) : List (List Char) → Except DecodeError (List UInt32)
  | [] => .ok []
  | field :: rest =>
    match Text.word32? field with
    | some gid => (cellsOfFields (index + 1) rest).map (gid :: ·)
    | none => .error (.badCell index (String.ofList field))

def cellsOfText (text : String) : Except DecodeError (List UInt32) :=
  cellsOfFields 0 (fields text)

def wordsOfBytes : List UInt8 → List UInt32
  | a :: b :: c :: d :: rest => Word.value32 [a, b, c, d] :: wordsOfBytes rest
  | _ => []

def unpack (compression : Compression) (limit : Nat) (bytes : List UInt8) :
    Except DecodeError (List UInt8) :=
  let limited (content : Unpacked) :=
    match content.upTo? limit with
    | some bytes => .ok bytes
    | none => .error .badCompression
  match compression with
  | .none => .ok bytes
  | .gzip => limited (Gzip.unpack bytes)
  | .zlib => limited (Zlib.unpack bytes)

def inWords {α : Type} : Checked α → Except DecodeError α
  | some a => .ok a
  | none => .error .overflow

def cellCount? (width height : UInt32) : Checked UInt64 :=
  Word.mul64? width.toUInt64 height.toUInt64

/-- One cell more than the grid has is enough to tell a stream that is too long. -/
def byteLimit? (expected : UInt64) : Checked UInt64 := do
  Word.mul64? (← Word.add64? expected 1) 4

def cellsOfBase64 (compression : Compression) (expected : UInt64) (text : String) :
    Except DecodeError (List UInt32) := do
  let limit ← inWords (byteLimit? expected)
  match Base64.decode? (Text.trim text.toList) with
  | none => throw .badBase64
  | some packed =>
    let bytes ← unpack compression limit.toNat packed
    if bytes.length % 4 = 0 then return wordsOfBytes bytes
    else throw (.sizeMismatch expected.toNat (bytes.length / 4))

/-- The cells of a layer, row by row; there have to be as many as its size says. -/
def decode (data : TileData) (width height : UInt32) : Except DecodeError (List UInt32) := do
  let encoding ← Encoding.ofTag data.encoding
  let compression ← Compression.ofTag data.compression
  let expected ← inWords (cellCount? width height)
  if compression ≠ .none ∧ encoding ≠ .base64 then throw (.compressedText compression encoding)
  let cells ←
    match encoding, data.payload with
    | .inline, .cells gids => .ok gids
    | .csv, .text text => cellsOfText text
    | .base64, .text text => cellsOfBase64 compression expected text
    | encoding, _ => .error (.payloadMismatch encoding)
  if cells.length = expected.toNat then return cells
  else throw (.sizeMismatch expected.toNat cells.length)

end TileData

end TileKiln
