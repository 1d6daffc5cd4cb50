import TileKiln.Payload.Checksum
import TileKiln.Payload.Inflate
import TileKiln.Payload.Unpacked
import TileKiln.Word

namespace TileKiln

def Ending.ofFault : Inflate.Fault → Ending
  | .corrupt => .corrupt
  | .truncated => .unfinished

namespace Zlib

/-- Whether two bytes head a stream without a preset dictionary, in a window of at most 32 KiB. -/
def isHeader (method flags : UInt8) : Bool :=
  (256 * method.toNat + flags.toNat) % 31 == 0 && flags &&& 0x20 == 0 && method &&& 0x0F == 8 &&
    method >>> 4 ≤ 7

def ending (bytes : Array UInt8) (trailer : List UInt8) : Ending :=
  if trailer.length < 4 then .unfinished
  else if Word.value32 (trailer.take 4).reverse = Checksum.adler32 bytes then .clean
  else .corrupt

def unpack : List UInt8 → Unpacked
  | method :: flags :: body =>
    if isHeader method flags then
      match inflate body with
      | (bytes, .ok trailer) => ⟨bytes, ending bytes trailer⟩
      | (bytes, .error fault) => ⟨bytes, .ofFault fault⟩
    else .failed
  | _ => .failed

end Zlib

namespace Gzip

def maxText : Nat := 65535

def afterExtra? : List UInt8 → Option (List UInt8)
  | low :: high :: rest =>
    let length := low.toNat + 256 * high.toNat
    if length ≤ rest.length then some (rest.drop length) else none
  | _ => none

def afterText? (bytes : List UInt8) : Option (List UInt8) :=
  match bytes.dropWhile (· != 0) with
  | [] => none
  | _ :: rest => if (bytes.takeWhile (· != 0)).length ≤ maxText then some rest else none

def afterChecksum? (stream : List UInt8) : List UInt8 → Option (List UInt8)
  | low :: high :: rest =>
    let header := stream.take (stream.length - (rest.length + 2))
    let crc := (Checksum.crc32 header.toArray).toNat % 65536
    if crc = low.toNat + 256 * high.toNat then some rest else none
  | _ => none

def optional (present : Bool) (skip : List UInt8 → Option (List UInt8)) (bytes : List UInt8) :
    Option (List UInt8) :=
  if present then skip bytes else some bytes

def body? (stream : List UInt8) : Option (List UInt8) :=
  match stream with
  | 0x1F :: 0x8B :: 8 :: flags :: _ :: _ :: _ :: _ :: _ :: _ :: rest =>
    let has (bit : UInt8) := flags &&& bit != 0
    if has 0xE0 then none
    else do
      let rest ← optional (has 0x04) afterExtra? rest
      let rest ← optional (has 0x08) afterText? rest
      let rest ← optional (has 0x10) afterText? rest
      optional (has 0x02) (afterChecksum? stream) rest
  | _ => none

/-- The checksum and the length modulo 2^32 are looked at only by a reader who drains the stream. -/
def ending (bytes : Array UInt8) (trailer : List UInt8) : Ending :=
  let expected := Word.bytes32 (Checksum.crc32 bytes) ++ Word.bytes 4 bytes.size
  if trailer.take 8 = expected then .clean else .unfinished

def unpack (stream : List UInt8) : Unpacked :=
  match body? stream with
  | none => .failed
  | some body =>
    match inflate body with
    | (bytes, .ok trailer) => ⟨bytes, ending bytes trailer⟩
    | (bytes, .error fault) => ⟨bytes, .ofFault fault⟩

end Gzip

end TileKiln
