import TileKiln.Proofs.DecodedCells

namespace TileKiln

namespace Unpacked

variable {content : Unpacked} {limit : Nat} {bytes : List UInt8}

theorem le_unpackedFor (limit : Nat) : limit ≤ unpackedFor limit := by
  rw [unpackedFor, windowSize]
  omega

theorem upTo?_of_ending (h : content.ending = .clean) :
    content.upTo? limit = some (content.bytes.toList.take limit) := by
  rw [upTo?, h]
  rfl

/-- What is read is the beginning of the stream. A fault goes unnoticed only behind the limit. -/
theorem take_of_upTo? (h : content.upTo? limit = some bytes) :
    bytes = content.bytes.toList.take limit ∧
      (content.ending ≠ .clean → limit ≤ content.bytes.size) := by
  cases hending : content.ending with
  | clean =>
      rw [upTo?_of_ending hending] at h
      exact ⟨(Option.some.inj h).symm, fun hfault => absurd rfl hfault⟩
  | unfinished =>
      simp only [upTo?, hending, decide_eq_true_eq] at h
      split at h
      next => cases h
      next hshown => exact ⟨(Option.some.inj h).symm, fun _ => Nat.le_of_not_lt hshown⟩
  | corrupt =>
      have hwindow := le_unpackedFor limit
      simp only [upTo?, hending, decide_eq_true_eq] at h
      split at h
      next => cases h
      next hshown => exact ⟨(Option.some.inj h).symm, fun _ => by omega⟩

theorem all?_eq_some_iff :
    content.all? = some bytes ↔ content.ending = .clean ∧ bytes = content.bytes.toList := by
  cases hcontent : content.ending with
  | clean => simp only [all?, hcontent, Option.some.injEq, true_and, eq_comm]
  | unfinished | corrupt => simp only [all?, hcontent, reduceCtorEq, false_and]

/-- Whoever gets less than was asked for has got everything. -/
theorem upTo?_eq_some_iff_of_lt (h : bytes.length < limit) :
    content.upTo? limit = some bytes ↔ content.all? = some bytes := by
  rw [all?_eq_some_iff]
  constructor
  · intro hread
    obtain ⟨rfl, hfault⟩ := take_of_upTo? hread
    rw [List.length_take, Array.length_toList] at h
    have hsize : content.bytes.size < limit := by omega
    have hall : content.bytes.toList.length ≤ limit := Nat.le_of_lt hsize
    refine ⟨Decidable.of_not_not fun hending => ?_, List.take_of_length_le hall⟩
    exact Nat.not_lt.2 (hfault hending) hsize
  · rintro ⟨hending, rfl⟩
    rw [upTo?_of_ending hending, List.take_of_length_le (Nat.le_of_lt h)]

end Unpacked

namespace TileData

variable {data : TileData} {content : Unpacked} {width height : UInt32} {grid : List UInt32}
  {n bound : Nat} {count limit : UInt64}

def gridOf (expected : Nat) : Option (List UInt8) → Except DecodeError (List UInt32)
  | none => .error .badCompression
  | some bytes =>
    if bytes.length = 4 * expected then .ok (wordsOfBytes bytes)
    else .error (.sizeMismatch expected (bytes.length / 4))

def content? : TileData → Option Unpacked
  | ⟨some "base64", some "gzip", .text text⟩ =>
    (Base64.decode? (Text.trim text.toList)).map Gzip.unpack
  | ⟨some "base64", some "zlib", .text text⟩ =>
    (Base64.decode? (Text.trim text.toList)).map Zlib.unpack
  | _ => none

def gridWithin (expected : Nat) (content : Unpacked) : Except DecodeError (List UInt32) :=
  gridOf expected (content.upTo? ((expected + 1) * 4))

def gridWhole (expected : Nat) (content : Unpacked) : Except DecodeError (List UInt32) :=
  gridOf expected content.all?

/-- `decode`, where `grid` yields the grid of a compressed stream. -/
def decodeBy (grid : Nat → Unpacked → Except DecodeError (List UInt32)) (data : TileData)
    (width height : UInt32) : Except DecodeError (List UInt32) :=
  match data.content? with
  | some content => grid (width.toNat * height.toNat) content
  | none => data.decode width height

/-- What becomes of bytes once they are unpacked. -/
theorem counted_wordsOfBytes (n : Nat) (bytes : List UInt8) :
    ((if bytes.length % 4 = 0 then return wordsOfBytes bytes
        else throw (.sizeMismatch n (bytes.length / 4)) : Except DecodeError (List UInt32)) >>=
      counted n) = gridOf n (some bytes) := by
  have hwords := length_wordsOfBytes bytes
  rw [gridOf]
  by_cases hlength : bytes.length = 4 * n
  · have haligned : bytes.length % 4 = 0 := by omega
    rw [if_pos hlength, if_pos haligned]
    exact counted_eq_ok_iff.2 ⟨rfl, by omega⟩
  · rw [if_neg hlength]
    split
    next haligned =>
      rw [← hwords]
      exact counted_eq_error_iff.2 ⟨rfl, by omega⟩
    next => rfl

theorem cellsOfBase64_of_unpack {compression : Compression} {packed : List UInt8} {text : String}
    (hlimit : byteLimit? count = some limit)
    (hpacked : Base64.decode? (Text.trim text.toList) = some packed)
    (hunpack : ∀ bound, unpack compression bound packed =
      match content.upTo? bound with
      | some bytes => .ok bytes
      | none => .error .badCompression) :
    cellsOfBase64 compression count text >>= counted count.toNat =
      gridOf count.toNat (content.upTo? limit.toNat) := by
  rw [cellsOfBase64_of_packed hlimit hpacked, hunpack]
  cases content.upTo? limit.toNat with
  | none => rfl
  | some bytes => exact counted_wordsOfBytes count.toNat bytes

theorem decode_of_content (h : data.content? = some content)
    (hlimit : byteLimit? (cellCount width height) = some limit) :
    data.decode width height =
      gridOf (width.toNat * height.toNat) (content.upTo? limit.toNat) := by
  rw [decode_eq, ← toNat_cellCount]
  unfold content? at h
  split at h
  next text =>
    obtain ⟨packed, hpacked, rfl⟩ := Option.map_eq_some_iff.1 h
    exact cellsOfBase64_of_unpack hlimit hpacked fun bound => rfl
  next text =>
    obtain ⟨packed, hpacked, rfl⟩ := Option.map_eq_some_iff.1 h
    exact cellsOfBase64_of_unpack hlimit hpacked fun bound => rfl
  next => cases h

theorem gridOf_eq_ok_iff {read : Option (List UInt8)} :
    gridOf n read = .ok grid ↔
      ∃ bytes, read = some bytes ∧ bytes.length = 4 * n ∧ grid = wordsOfBytes bytes := by
  constructor
  · intro h
    cases read with
    | none => cases h
    | some bytes =>
        rw [gridOf] at h
        split at h
        next hlength =>
          cases h
          exact ⟨bytes, rfl, hlength, rfl⟩
        next => cases h
  · rintro ⟨bytes, rfl, hlength, rfl⟩
    exact if_pos hlength

/-- A limit past the grid lets the same streams through as no limit. -/
theorem gridOf_upTo?_eq_ok_iff (hbound : 4 * n < bound) :
    gridOf n (content.upTo? bound) = .ok grid ↔ gridOf n content.all? = .ok grid := by
  rw [gridOf_eq_ok_iff, gridOf_eq_ok_iff]
  constructor
  · rintro ⟨bytes, hread, hlength, hgrid⟩
    have hlt : bytes.length < bound := hlength ▸ hbound
    exact ⟨bytes, (Unpacked.upTo?_eq_some_iff_of_lt hlt).1 hread, hlength, hgrid⟩
  · rintro ⟨bytes, hread, hlength, hgrid⟩
    have hlt : bytes.length < bound := hlength ▸ hbound
    exact ⟨bytes, (Unpacked.upTo?_eq_some_iff_of_lt hlt).2 hread, hlength, hgrid⟩

/-- No more is told of a stream than lies within the bound. -/
theorem gridOf_upTo?_of_not_size (n bound : Nat) (content : Unpacked)
    (h : min bound content.bytes.size ≠ 4 * n) :
    gridOf n (content.upTo? bound) = .error .badCompression ∨
      gridOf n (content.upTo? bound) =
        .error (.sizeMismatch n (min bound content.bytes.size / 4)) := by
  cases hread : content.upTo? bound with
  | none => exact .inl rfl
  | some bytes =>
      obtain ⟨rfl, _⟩ := Unpacked.take_of_upTo? hread
      have hlength : (content.bytes.toList.take bound).length = min bound content.bytes.size := by
        rw [List.length_take, Array.length_toList]
      rw [gridOf, hlength]
      exact .inr (if_neg h)

theorem gridWithin_eq_ok_iff : gridWithin n content = .ok grid ↔ gridWhole n content = .ok grid :=
  gridOf_upTo?_eq_ok_iff (by omega)

theorem decode_eq_within (hsize : (width.toNat * height.toNat + 1) * 4 < UInt64.size) :
    data.decode width height = data.decodeBy gridWithin width height := by
  rw [decodeBy]
  cases hcontent : data.content? with
  | none => rfl
  | some content =>
      rw [← toNat_cellCount] at hsize
      obtain ⟨limit, hbytes, hlimit⟩ := exists_byteLimit? hsize
      rw [decode_of_content hcontent hbytes, hlimit, toNat_cellCount]
      rfl

/-- Where the limit is a word, compressed streams are unpacked one cell past the grid. That gives a
grid exactly if the whole stream does, and then the same one, whatever the stream holds and however
it ends. A stream that holds more than the grid is refused, and at most one cell too many is
reported. -/
theorem decode_of_limit (hsize : (width.toNat * height.toNat + 1) * 4 < UInt64.size) :
    (∀ data : TileData, data.decode width height = data.decodeBy gridWithin width height) ∧
    (∀ (data : TileData) (grid : List UInt32),
      data.decode width height = .ok grid ↔ data.decodeBy gridWhole width height = .ok grid) ∧
    ∀ (n : Nat) (content : Unpacked),
      (∀ grid, gridWithin n content = .ok grid ↔ gridWhole n content = .ok grid) ∧
      (4 * n < content.bytes.size →
        gridWithin n content = .error .badCompression ∨
        ∃ actual ≤ n + 1, gridWithin n content = .error (.sizeMismatch n actual)) := by
  refine ⟨fun data => decode_eq_within hsize, fun data grid => ?_, fun n content => ⟨?_, ?_⟩⟩
  · rw [decode_eq_within hsize, decodeBy, decodeBy]
    cases data.content? with
    | none => rfl
    | some content => exact gridWithin_eq_ok_iff
  · exact fun grid => gridWithin_eq_ok_iff
  · intro hlarge
    rcases gridOf_upTo?_of_not_size n ((n + 1) * 4) content (by omega) with hbad | hmismatch
    · exact .inl hbad
    · exact .inr ⟨_, by omega, hmismatch⟩

def sampleCell : TileData := ⟨some "base64", some "zlib", .text "eAEBBAD7/wcAAAAAIAAI"⟩

def sampleContent : Unpacked := ⟨#[7, 0, 0, 0], .clean⟩

def sampleCut : Unpacked := ⟨#[7, 0, 0, 0], .unfinished⟩

theorem content?_sampleCell : sampleCell.content? = some sampleContent := by decide +kernel

/-- The checksum is missed where the cell is wanted, but not where it is one too many. -/
theorem decode_of_limit_sample :
    ((1 : UInt32).toNat * (1 : UInt32).toNat + 1) * 4 < UInt64.size ∧
    sampleCell.decode 1 1 = .ok [7] ∧
    gridWithin 1 sampleCut ≠ .ok [7] ∧
    4 * 0 < sampleCut.bytes.size ∧
    gridWithin 0 sampleCut = .error (.sizeMismatch 0 1) ∧
    ∃ actual ≤ 0 + 1, gridWithin 0 sampleCut = .error (.sizeMismatch 0 actual) := by
  have hsize : ((1 : UInt32).toNat * (1 : UInt32).toNat + 1) * 4 < UInt64.size := by decide
  have hlarge : 4 * 0 < sampleCut.bytes.size := by decide
  have hmismatch : gridWithin 0 sampleCut = .error (.sizeMismatch 0 1) := rfl
  obtain ⟨_, hwhole, hstreams⟩ := decode_of_limit hsize
  refine ⟨hsize, (hwhole sampleCell [7]).2 ?_, fun h => ?_, hlarge, hmismatch, ?_⟩
  · rw [decodeBy, content?_sampleCell]
    rfl
  · cases ((hstreams 1 sampleCut).1 [7]).1 h
  · rcases (hstreams 0 sampleCut).2 hlarge with hbad | hfound
    · rw [hmismatch] at hbad
      cases hbad
    · exact hfound

structure Packed (data : TileData) : Prop where
  encoding : data.encoding = some "base64"
  compression : ∃ compression, Compression.ofTag data.compression = .ok compression
  payload : ∃ text, data.payload = .text text

theorem base64_of_ofTag {tag : Option String} (h : Encoding.ofTag tag = .ok .base64) :
    tag = some "base64" := by
  rw [Encoding.ofTag.eq_def] at h
  split at h <;> cases h
  rfl

theorem byteLimit?_of_cellsOf {encoding : Encoding} {compression : Compression} {payload : Payload}
    (h : cellsOf encoding compression count payload = .error .overflow) :
    encoding = .base64 ∧ (∃ text, payload = .text text) ∧ byteLimit? count = none := by
  cases payload with
  | cells gids =>
      rw [cellsOf] at h
      split at h <;> cases h
  | text text =>
      cases encoding with
      | inline => cases h
      | csv =>
          obtain ⟨_, _, _, _, _, _, hbad⟩ := cellsOfFields_eq_error_iff.1 h
          cases hbad
      | base64 =>
          rcases cases_of_cellsOfBase64 h with ⟨_, hnone⟩ | hbad | hbad | ⟨_, hbad⟩
          · exact ⟨rfl, ⟨text, rfl⟩, hnone⟩
          · cases hbad
          · cases hbad
          · cases hbad

theorem decode_eq_overflow_iff :
    data.decode width height = .error .overflow ↔
      data.Packed ∧ UInt64.size ≤ (width.toNat * height.toNat + 1) * 4 := by
  rw [← toNat_cellCount, ← byteLimit?_eq_none_iff, decode_eq]
  constructor
  · intro h
    rcases error_of_bind h with htag | ⟨encoding, hencoding, h⟩
    · obtain ⟨_, heq⟩ := unsupported_of_encoding htag
      cases heq
    rcases error_of_bind h with htag | ⟨compression, hcompression, h⟩
    · obtain ⟨_, heq⟩ := unsupported_of_compression htag
      cases heq
    split at h
    next => cases h
    next =>
      rcases bind_counted_eq_error_iff.1 h with hcells | ⟨_, _, heq, _⟩
      · obtain ⟨rfl, hpayload, hnone⟩ := byteLimit?_of_cellsOf hcells
        exact ⟨⟨base64_of_ofTag hencoding, ⟨compression, hcompression⟩, hpayload⟩, hnone⟩
      · cases heq
  · rintro ⟨⟨hencoding, ⟨compression, hcompression⟩, text, hpayload⟩, hnone⟩
    rw [hencoding, hcompression, hpayload]
    refine (if_neg fun hmixed => hmixed.2 rfl).trans ?_
    exact bind_counted_eq_error_iff.2 (.inl (cellsOfBase64_of_overflow hnone))

/-- The number of cells is a word for every size, and so is that of one cell more, but four times
that is not. Where it is, it is the limit, one cell past the grid; else the decoding of every text in
Base64 ends on the spot. Nothing else depends on the limit. -/
theorem limit_of_size (width height : UInt32) :
    (∃ count, cellCount? width height = some count ∧
      count.toNat = width.toNat * height.toNat ∧
      (∃ next, Word.add64? count 1 = some next ∧
        next.toNat = width.toNat * height.toNat + 1) ∧
      (∀ limit, byteLimit? count = some limit ↔
        limit.toNat = (width.toNat * height.toNat + 1) * 4) ∧
      ((byteLimit? count).isSome ↔
        (width.toNat * height.toNat + 1) * 4 < UInt64.size)) ∧
    (∀ data : TileData,
      (∀ grid, data.decode width height = .ok grid →
        grid.length = width.toNat * height.toNat) ∧
      (∀ expected actual, data.decode width height = .error (.sizeMismatch expected actual) →
        expected = width.toNat * height.toNat) ∧
      (data.decode width height = .error .overflow ↔
        data.Packed ∧ UInt64.size ≤ (width.toNat * height.toNat + 1) * 4)) ∧
    ((width.toNat * height.toNat + 1) * 4 < UInt64.size → ∀ data : TileData,
      data.decode width height = data.decodeBy gridWithin width height) := by
  have hcount := toNat_cellCount width height
  refine ⟨⟨_, cellCount?_eq width height, hcount, ?_, fun limit => ?_, ?_⟩, fun data => ⟨?_, ?_, ?_⟩,
    fun hsize data => decode_eq_within hsize⟩
  · have hnext := UInt64.toNat_ofNat_of_lt' (cells_lt width height)
    exact ⟨_, Word.add64?_eq_some_iff.2 (hnext.trans (congrArg (· + 1) hcount.symm)), hnext⟩
  · rw [← hcount]
    exact byteLimit?_eq_some_iff
  · rw [← hcount, ← Nat.not_le, ← byteLimit?_eq_none_iff, Option.isSome_iff_ne_none]
  · exact fun grid h => length_of_decode h
  · exact fun expected actual h => expected_of_decode h
  · exact decode_eq_overflow_iff

/-- A layer that a document can declare, and one whose cells are too many for the limit. -/
theorem limit_of_size_sample :
    ((65535 : UInt32).toNat * (65535 : UInt32).toNat + 1) * 4 < UInt64.size ∧
    sampleCell.decode 65535 65535 = .error (.sizeMismatch 4294836225 1) ∧
    UInt64.size ≤
      ((2147483647 : UInt32).toNat * (2147483649 : UInt32).toNat + 1) * 4 ∧
    sampleCell.Packed ∧
    sampleCell.decode 2147483647 2147483649 = .error .overflow := by
  have hsize : ((65535 : UInt32).toNat * (65535 : UInt32).toNat + 1) * 4 < UInt64.size := by decide
  have hbeyond : UInt64.size ≤
      ((2147483647 : UInt32).toNat * (2147483649 : UInt32).toNat + 1) * 4 := by decide
  have hpacked : sampleCell.Packed := ⟨rfl, ⟨.zlib, rfl⟩, _, rfl⟩
  refine ⟨hsize, ?_, hbeyond, hpacked, ?_⟩
  · rw [(limit_of_size 65535 65535).2.2 hsize, decodeBy, content?_sampleCell]
    rfl
  · exact ((limit_of_size 2147483647 2147483649).2.1 sampleCell).2.2.2 ⟨hpacked, hbeyond⟩

/-- The cells of a layer are a word, but not a limit of 2 ^ 64 bytes: the cell of a stream is not
counted. -/
theorem byteLimit_overflows :
    cellCount? 2147483647 2147483649 = some 4611686018427387903 ∧
    byteLimit? 4611686018427387903 = none ∧
    ((2147483647 : UInt32).toNat * (2147483649 : UInt32).toNat + 1) * 4 = UInt64.size ∧
    sampleCell.decode 2147483647 2147483649 = .error .overflow ∧
    sampleCell.decodeBy gridWithin 2147483647 2147483649 =
      .error (.sizeMismatch 4611686018427387903 1) := by
  refine ⟨by decide, by decide, by decide, ?_, ?_⟩
  · exact decode_eq_overflow_iff.2 ⟨⟨rfl, ⟨.zlib, rfl⟩, _, rfl⟩, by decide⟩
  · rw [decodeBy, content?_sampleCell]
    rfl

end TileData

end TileKiln
