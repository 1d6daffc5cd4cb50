namespace TileKiln.Checksum

/-- One bit of the division by the CRC-32 polynomial, lowest bit first. -/
def crcStep (crc : UInt32) : UInt32 :=
  if crc &&& 1 = 1 then (crc >>> 1) ^^^ 0xEDB88320 else crc >>> 1

def crcByte (crc : UInt32) (b : UInt8) : UInt32 :=
  crcStep <| crcStep <| crcStep <| crcStep <| crcStep <| crcStep <| crcStep <| crcStep <|
    crc ^^^ b.toUInt32

def crc32 (bytes : Array UInt8) : UInt32 :=
  bytes.foldl crcByte 0xFFFFFFFF ^^^ 0xFFFFFFFF

/-- Two sums modulo 65521: of the bytes, counted from 1, and of the first sums. -/
def adler32 (bytes : Array UInt8) : UInt32 :=
  let (a, b) := bytes.foldl
    (fun (a, b) byte =>
      let a := (a + byte.toUInt32) % 65521
      (a, (b + a) % 65521))
    ((1 : UInt32), (0 : UInt32))
  b <<< 16 ||| a

end TileKiln.Checksum
