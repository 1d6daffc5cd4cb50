import TileKiln.Proofs.InflateLimit

namespace TileKiln

inductive Amount
  | cells (count : Nat)
  | bytes (count : Nat)

namespace Amount

variable {amount : Amount} {expected : Nat}

def wholeCells : Amount → Nat
  | cells count => count
  | bytes count => count / 4

def Fills (expected : Nat) : Amount → Prop
  | cells count => count = expected
  | bytes count => count = 4 * expected

instance (expected : Nat) : (amount : Amount) → Decidable (amount.Fills expected)
  | cells count => inferInstanceAs (Decidable (count = expected))
  | bytes count => inferInstanceAs (Decidable (count = 4 * expected))

theorem wholeCells_eq_iff (h : ¬ amount.Fills expected) :
    amount.wholeCells = expected ↔
      ∃ count, amount = .bytes count ∧ 4 * expected < count ∧ count < 4 * (expected + 1) := by
  cases amount with
  | cells count =>
      constructor
      · exact fun heq => absurd heq h
      · rintro ⟨_, heq, _⟩
        cases heq
  | bytes count =>
      have hcount : count ≠ 4 * expected := h
      rw [wholeCells]
      constructor
      · intro heq
        exact ⟨count, rfl, by omega, by omega⟩
      · rintro ⟨_, heq, hmore, hless⟩
        cases heq
        omega

end Amount

namespace TileData

variable {data : TileData} {encoding : Encoding} {compression : Compression} {payload : Payload}
  {width height : UInt32} {n bound expected actual : Nat} {count limit : UInt64} {text : String}
  {amount amount' : Amount}

/-- What a payload yields in a form: cells, or the bytes of a text, of a compressed one no more than
`bound`. -/
inductive Yields (bound : Nat) : Encoding → Compression → Payload → Amount → Prop
  | inline (gids : List UInt32) : Yields bound .inline .none (.cells gids) (.cells gids.length)
  | csv {text : String} {cells : List UInt32} (h : cellsOfText text = .ok cells) :
      Yields bound .csv .none (.text text) (.cells cells.length)
  | base64 {compression : Compression} {text : String} {packed bytes : List UInt8}
      (hpacked : Base64.decode? (Text.trim text.toList) = some packed)
      (h : unpack compression bound packed = .ok bytes) :
      Yields bound .base64 compression (.text text) (.bytes bytes.length)

def Holds (bound : Nat) (data : TileData) (amount : Amount) : Prop :=
  ∃ encoding compression, Encoding.ofTag data.encoding = .ok encoding ∧
    Compression.ofTag data.compression = .ok compression ∧
    Yields bound encoding compression data.payload amount

theorem Yields.unique (h : Yields bound encoding compression payload amount)
    (h' : Yields bound encoding compression payload amount') : amount = amount' := by
  cases h with
  | inline gids =>
      cases h'
      rfl
  | csv hcells =>
      obtain _ | hcells' := h'
      rw [hcells] at hcells'
      cases hcells'
      rfl
  | base64 hpacked hunpack =>
      obtain _ | _ | ⟨hpacked', hunpack'⟩ := h'
      rw [hpacked] at hpacked'
      cases hpacked'
      rw [hunpack] at hunpack'
      cases hunpack'
      rfl

theorem Holds.unique (h : data.Holds bound amount) (h' : data.Holds bound amount') :
    amount = amount' := by
  obtain ⟨encoding, compression, hencoding, hcompression, hyields⟩ := h
  obtain ⟨encoding', compression', hencoding', hcompression', hyields'⟩ := h'
  rw [hencoding] at hencoding'
  cases hencoding'
  rw [hcompression] at hcompression'
  cases hcompression'
  exact hyields.unique hyields'

theorem Yields.unmixed (h : Yields bound encoding compression payload amount) :
    ¬ (compression ≠ .none ∧ encoding ≠ .base64) := by
  rintro ⟨hcompression, hencoding⟩
  cases h with
  | inline | csv => exact hcompression rfl
  | base64 => exact hencoding rfl

theorem gridOf_eq_sizeMismatch_iff {bytes : List UInt8} :
    gridOf n (some bytes) = .error (.sizeMismatch expected actual) ↔
      bytes.length ≠ 4 * n ∧ expected = n ∧ actual = bytes.length / 4 := by
  rw [gridOf]
  split
  next hlength =>
    constructor
    · intro h
      cases h
    · exact fun h => absurd hlength h.1
  next hlength =>
    constructor
    · intro h
      cases h
      exact ⟨hlength, rfl, rfl⟩
    · rintro ⟨_, rfl, rfl⟩
      rfl

theorem unpack_ne_sizeMismatch {packed : List UInt8} :
    unpack compression bound packed ≠ .error (.sizeMismatch expected actual) := by
  intro h
  cases error_of_unpack h

/-- A text in Base64 is refused for its size by the bytes that it holds. -/
theorem cellsOfBase64_eq_sizeMismatch_iff (hlimit : byteLimit? count = some limit) :
    cellsOfBase64 compression count text >>= counted count.toNat =
        .error (.sizeMismatch expected actual) ↔
      ∃ packed bytes, Base64.decode? (Text.trim text.toList) = some packed ∧
        unpack compression limit.toNat packed = .ok bytes ∧
        gridOf count.toNat (some bytes) = .error (.sizeMismatch expected actual) := by
  cases hpacked : Base64.decode? (Text.trim text.toList) with
  | none =>
      rw [cellsOfBase64_of_invalid hlimit hpacked]
      constructor
      · intro h
        cases h
      · rintro ⟨_, _, h, _⟩
        cases h
  | some packed =>
      rw [cellsOfBase64_of_packed hlimit hpacked, bind_assoc]
      constructor
      · intro h
        rcases error_of_bind h with hunpack | ⟨bytes, hunpack, h⟩
        · exact absurd hunpack unpack_ne_sizeMismatch
        · rw [counted_wordsOfBytes] at h
          exact ⟨packed, bytes, rfl, hunpack, h⟩
      · rintro ⟨_, bytes, heq, hunpack, h⟩
        cases heq
        rw [hunpack]
        exact (counted_wordsOfBytes count.toNat bytes).trans h

/-- A payload is refused for its size exactly if it holds another amount than that of the cells. -/
theorem cellsOf_eq_sizeMismatch_iff (hform : ¬ (compression ≠ .none ∧ encoding ≠ .base64))
    (hlimit : byteLimit? count = some limit) :
    cellsOf encoding compression count payload >>= counted count.toNat =
        .error (.sizeMismatch expected actual) ↔
      expected = count.toNat ∧ ∃ amount, Yields limit.toNat encoding compression payload amount ∧
        ¬ amount.Fills count.toNat ∧ actual = amount.wholeCells := by
  constructor
  · intro h
    cases payload with
    | cells gids =>
        rw [cellsOf] at h
        split at h
        next hencoding =>
          subst hencoding
          obtain rfl : compression = .none := by simpa using hform
          obtain ⟨heq, hlength⟩ := counted_eq_error_iff.1 h
          cases heq
          exact ⟨rfl, .cells gids.length, .inline gids, hlength, rfl⟩
        next => cases h
    | text text =>
        cases encoding with
        | inline => cases h
        | csv =>
            obtain rfl : compression = .none := by simpa using hform
            rcases bind_counted_eq_error_iff.1 h with hcells | ⟨cells, hcells, heq, hlength⟩
            · exact absurd hcells cellsOfFields_ne_sizeMismatch
            · cases heq
              exact ⟨rfl, .cells cells.length, .csv hcells, hlength, rfl⟩
        | base64 =>
            obtain ⟨packed, bytes, hpacked, hunpack, h⟩ :=
              (cellsOfBase64_eq_sizeMismatch_iff hlimit).1 h
            obtain ⟨hlength, hexpected, hactual⟩ := gridOf_eq_sizeMismatch_iff.1 h
            exact ⟨hexpected, .bytes bytes.length, .base64 hpacked hunpack, hlength, hactual⟩
  · rintro ⟨rfl, amount, hyields, hfills, rfl⟩
    cases hyields with
    | inline gids => exact counted_eq_error_iff.2 ⟨rfl, hfills⟩
    | csv hcells => exact bind_counted_eq_error_iff.2 (.inr ⟨_, hcells, rfl, hfills⟩)
    | base64 hpacked hunpack =>
        exact (cellsOfBase64_eq_sizeMismatch_iff hlimit).2
          ⟨_, _, hpacked, hunpack, gridOf_eq_sizeMismatch_iff.2 ⟨hfills, rfl, rfl⟩⟩

theorem decode_eq_sizeMismatch_iff (hlimit : byteLimit? (cellCount width height) = some limit) :
    data.decode width height = .error (.sizeMismatch expected actual) ↔
      expected = width.toNat * height.toNat ∧
        ∃ amount, data.Holds limit.toNat amount ∧ ¬ amount.Fills expected ∧
          actual = amount.wholeCells := by
  rw [decode_eq, ← toNat_cellCount]
  constructor
  · intro h
    rcases error_of_bind h with htag | ⟨encoding, hencoding, h⟩
    · obtain ⟨_, heq⟩ := unsupported_of_encoding htag
      cases heq
    rcases error_of_bind h with htag | ⟨compression, hcompression, h⟩
    · obtain ⟨_, heq⟩ := unsupported_of_compression htag
      cases heq
    split at h
    next => cases h
    next hform =>
      obtain ⟨rfl, amount, hyields, hfills, hactual⟩ :=
        (cellsOf_eq_sizeMismatch_iff hform hlimit).1 h
      exact ⟨rfl, amount, ⟨encoding, compression, hencoding, hcompression, hyields⟩, hfills, hactual⟩
  · rintro ⟨rfl, amount, ⟨encoding, compression, hencoding, hcompression, hyields⟩, hfills, hactual⟩
    rw [hencoding, hcompression]
    refine (if_neg hyields.unmixed).trans ?_
    exact (cellsOf_eq_sizeMismatch_iff hyields.unmixed hlimit).2 ⟨rfl, amount, hyields, hfills, hactual⟩

/-- Under a limit that is a word, a layer is refused for its size exactly if its payload holds
another amount than that of its cells. The cells that are told of differ from those that are wanted,
unless the payload is bytes that exceed them by a part of a cell. -/
theorem mismatch_of_decode (hsize : (width.toNat * height.toNat + 1) * 4 < UInt64.size) :
    (∀ expected actual, data.decode width height = .error (.sizeMismatch expected actual) ↔
      expected = width.toNat * height.toNat ∧
        ∃ amount, data.Holds ((expected + 1) * 4) amount ∧ ¬ amount.Fills expected ∧
          actual = amount.wholeCells) ∧
    ∀ expected actual, data.decode width height = .error (.sizeMismatch expected actual) →
      (actual = expected ↔ ∃ count, data.Holds ((expected + 1) * 4) (.bytes count) ∧
        4 * expected < count ∧ count < 4 * (expected + 1)) := by
  have hiff (expected actual : Nat) :
      data.decode width height = .error (.sizeMismatch expected actual) ↔
        expected = width.toNat * height.toNat ∧
          ∃ amount, data.Holds ((expected + 1) * 4) amount ∧ ¬ amount.Fills expected ∧
            actual = amount.wholeCells := by
    rw [← toNat_cellCount] at hsize
    obtain ⟨limit, hbytes, hlimit⟩ := exists_byteLimit? hsize
    rw [decode_eq_sizeMismatch_iff hbytes, hlimit, toNat_cellCount]
    refine and_congr_right ?_
    rintro rfl
    rfl
  refine ⟨hiff, fun expected actual h => ?_⟩
  obtain ⟨-, amount, hholds, hfills, rfl⟩ := (hiff expected actual).1 h
  rw [Amount.wholeCells_eq_iff hfills]
  constructor
  · rintro ⟨count, rfl, hmore, hless⟩
    exact ⟨count, hholds, hmore, hless⟩
  · rintro ⟨count, hcount, hmore, hless⟩
    exact ⟨count, hholds.unique hcount, hmore, hless⟩

def brokenCell : TileData := ⟨some "base64", none, .text "AQAAAAU="⟩

theorem mismatch_of_decode_sample :
    ((1 : UInt32).toNat * (1 : UInt32).toNat + 1) * 4 < UInt64.size ∧
      (brokenCell.decode 1 1 = .error (.sizeMismatch 1 1) ∧
        ∃ count, brokenCell.Holds 8 (.bytes count) ∧ 4 < count ∧ count < 8) ∧
      (TileData.mk (some "csv") none (.text "1,2,3")).decode 1 1 =
        .error (.sizeMismatch 1 3) := by
  have hsize : ((1 : UInt32).toNat * (1 : UInt32).toNat + 1) * 4 < UInt64.size := by decide
  have hpacked : Base64.decode? (Text.trim "AQAAAAU=".toList) = some [1, 0, 0, 0, 5] := by
    decide +kernel
  have hunpack : unpack .none 8 [1, 0, 0, 0, 5] = .ok [1, 0, 0, 0, 5] := rfl
  have hbytes : brokenCell.Holds 8 (.bytes 5) :=
    ⟨.base64, .none, rfl, rfl, .base64 hpacked hunpack⟩
  have hfields : cellsOfText "1,2,3" = .ok [1, 2, 3] := by decide +kernel
  have hcells : (TileData.mk (some "csv") none (.text "1,2,3")).Holds 8 (.cells 3) :=
    ⟨.csv, .none, rfl, rfl, .csv hfields⟩
  have hbroken : brokenCell.decode 1 1 = .error (.sizeMismatch 1 1) :=
    ((mismatch_of_decode hsize).1 1 1).2 ⟨rfl, .bytes 5, hbytes, by decide, rfl⟩
  refine ⟨hsize, ⟨hbroken, ((mismatch_of_decode hsize).2 1 1 hbroken).1 rfl⟩, ?_⟩
  exact ((mismatch_of_decode hsize).1 1 3).2 ⟨rfl, .cells 3, hcells, by decide, rfl⟩

/-- It is refused for a byte too many, and told to hold the one cell that is wanted. -/
theorem mismatch_of_brokenCell : brokenCell.decode 1 1 = .error (.sizeMismatch 1 1) := by
  decide +kernel

end TileData

end TileKiln
