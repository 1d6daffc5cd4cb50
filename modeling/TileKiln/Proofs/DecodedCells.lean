import Mathlib.Data.List.Forall2
import TileKiln.Payload.Decode
import TileKiln.Proofs.CheckedWords
import TileKiln.Proofs.Success

namespace TileKiln.TileData

variable {data : TileData} {width height : UInt32} {n index expected actual : Nat}
  {count limit : UInt64} {fields : List (List Char)} {cells grid : List UInt32}

def cellCount (width height : UInt32) : UInt64 := width.toUInt64 * height.toUInt64

theorem cells_lt (width height : UInt32) : width.toNat * height.toNat + 1 < UInt64.size := by
  have hwidth : width.toNat ≤ 4294967295 := Nat.le_of_lt_succ width.toNat_lt
  have hheight : height.toNat ≤ 4294967295 := Nat.le_of_lt_succ height.toNat_lt
  have hcells : width.toNat * height.toNat ≤ 4294967295 * 4294967295 :=
    Nat.mul_le_mul hwidth hheight
  exact Nat.lt_of_le_of_lt (Nat.succ_le_succ hcells) (by decide)

theorem toNat_cellCount (width height : UInt32) :
    (cellCount width height).toNat = width.toNat * height.toNat := by
  rw [cellCount, UInt64.toNat_mul, UInt32.toNat_toUInt64, UInt32.toNat_toUInt64]
  exact Nat.mod_eq_of_lt (Nat.lt_of_succ_lt (cells_lt width height))

theorem cellCount?_eq (width height : UInt32) :
    cellCount? width height = some (cellCount width height) := by
  rw [cellCount?, Word.mul64?_eq_some_iff, toNat_cellCount, UInt32.toNat_toUInt64,
    UInt32.toNat_toUInt64]

theorem byteLimit?_eq_some_iff : byteLimit? count = some limit ↔
    limit.toNat = (count.toNat + 1) * 4 := by
  simp only [byteLimit?, Option.bind_eq_bind, Option.bind_eq_some_iff, Word.add64?_eq_some_iff,
    Word.mul64?_eq_some_iff]
  constructor
  · rintro ⟨cells, hcells, hlimit⟩
    rw [hlimit, hcells]
    rfl
  · intro hlimit
    have hcells : count.toNat + 1 < UInt64.size := by
      have hlt : limit.toNat < UInt64.size := limit.toNat_lt
      omega
    refine ⟨.ofNat (count.toNat + 1), UInt64.toNat_ofNat_of_lt' hcells, ?_⟩
    rw [hlimit, UInt64.toNat_ofNat_of_lt' hcells]
    rfl

theorem exists_byteLimit? (h : (count.toNat + 1) * 4 < UInt64.size) :
    ∃ limit, byteLimit? count = some limit ∧ limit.toNat = (count.toNat + 1) * 4 :=
  ⟨_, byteLimit?_eq_some_iff.2 (UInt64.toNat_ofNat_of_lt' h), UInt64.toNat_ofNat_of_lt' h⟩

theorem byteLimit?_eq_none_iff : byteLimit? count = none ↔
    UInt64.size ≤ (count.toNat + 1) * 4 := by
  constructor
  · intro hnone
    by_contra hlt
    obtain ⟨limit, hlimit, _⟩ := exists_byteLimit? (Nat.not_le.1 hlt)
    rw [hnone] at hlimit
    cases hlimit
  · intro hle
    rw [Option.eq_none_iff_forall_ne_some]
    intro limit hlimit
    have hlt : limit.toNat < UInt64.size := limit.toNat_lt
    rw [byteLimit?_eq_some_iff.1 hlimit] at hlt
    exact Nat.not_lt.2 hle hlt

def cellsOf (encoding : Encoding) (compression : Compression) (expected : UInt64) :
    Payload → Except DecodeError (List UInt32)
  | .cells gids => if encoding = .inline then .ok gids else .error (.payloadMismatch encoding)
  | .text text =>
    match encoding with
    | .inline => .error (.payloadMismatch .inline)
    | .csv => cellsOfText text
    | .base64 => cellsOfBase64 compression expected text

def counted (expected : Nat) (cells : List UInt32) : Except DecodeError (List UInt32) :=
  if cells.length = expected then .ok cells else .error (.sizeMismatch expected cells.length)

theorem counted_eq_ok_iff : counted n cells = .ok grid ↔ grid = cells ∧ cells.length = n := by
  rw [counted]
  constructor
  · intro h
    split at h
    next hlength =>
      cases h
      exact ⟨rfl, hlength⟩
    next => cases h
  · rintro ⟨rfl, hlength⟩
    exact if_pos hlength

theorem counted_eq_error_iff {e : DecodeError} :
    counted n cells = .error e ↔ e = .sizeMismatch n cells.length ∧ cells.length ≠ n := by
  rw [counted]
  constructor
  · intro h
    split at h
    next => cases h
    next hlength =>
      cases h
      exact ⟨rfl, hlength⟩
  · rintro ⟨rfl, hlength⟩
    exact if_neg hlength

theorem bind_counted_eq_ok_iff {decoded : Except DecodeError (List UInt32)} :
    decoded >>= counted n = .ok grid ↔ decoded = .ok grid ∧ grid.length = n := by
  constructor
  · intro h
    obtain ⟨cells, rfl, hcounted⟩ := ok_of_bind h
    obtain ⟨rfl, hlength⟩ := counted_eq_ok_iff.1 hcounted
    exact ⟨rfl, hlength⟩
  · rintro ⟨rfl, hlength⟩
    exact counted_eq_ok_iff.2 ⟨rfl, hlength⟩

theorem bind_counted_eq_error_iff {decoded : Except DecodeError (List UInt32)} {e : DecodeError} :
    decoded >>= counted n = .error e ↔
      decoded = .error e ∨
        ∃ cells, decoded = .ok cells ∧ e = .sizeMismatch n cells.length ∧ cells.length ≠ n := by
  constructor
  · intro h
    rcases error_of_bind h with rfl | ⟨cells, rfl, hcounted⟩
    · exact .inl rfl
    · exact .inr ⟨cells, rfl, counted_eq_error_iff.1 hcounted⟩
  · rintro (rfl | ⟨cells, rfl, hmismatch⟩)
    · rfl
    · exact counted_eq_error_iff.2 hmismatch

theorem decode_eq (data : TileData) (width height : UInt32) :
    data.decode width height = (do
      let encoding ← Encoding.ofTag data.encoding
      let compression ← Compression.ofTag data.compression
      if compression ≠ .none ∧ encoding ≠ .base64 then
        .error (.compressedText compression encoding)
      else
        cellsOf encoding compression (cellCount width height) data.payload >>=
          counted (width.toNat * height.toNat)) := by
  rw [decode, cellCount?_eq, ← toNat_cellCount]
  cases Encoding.ofTag data.encoding with
  | error e => rfl
  | ok encoding =>
      cases Compression.ofTag data.compression with
      | error e => rfl
      | ok compression =>
          by_cases hmixed : compression ≠ .none ∧ encoding ≠ .base64
          · exact (if_pos hmixed).trans (if_pos hmixed).symm
          · refine (if_neg hmixed).trans (Eq.trans ?_ (if_neg hmixed).symm)
            cases encoding with
            | inline | csv | base64 => cases data.payload <;> rfl

theorem length_of_decode (h : data.decode width height = .ok grid) :
    grid.length = width.toNat * height.toNat := by
  rw [decode_eq] at h
  obtain ⟨encoding, _, h⟩ := ok_of_bind h
  obtain ⟨compression, _, h⟩ := ok_of_bind h
  split at h
  next => cases h
  next =>
    exact (bind_counted_eq_ok_iff.1 h).2

theorem cellsOfFields_eq_ok_iff :
    cellsOfFields index fields = .ok cells ↔
      List.Forall₂ (fun cell field => Text.word32? field = some cell) cells fields := by
  induction fields generalizing index cells with
  | nil =>
      rw [List.forall₂_nil_right_iff]
      exact ⟨fun h => (Except.ok.inj h).symm, fun h => h ▸ rfl⟩
  | cons field fields ih =>
      rw [cellsOfFields, List.forall₂_cons_right_iff]
      constructor
      · intro h
        split at h
        next cell hcell =>
          obtain ⟨cells, hrest, rfl⟩ := map_eq_ok_iff.1 h
          exact ⟨cell, cells, hcell, ih.1 hrest, rfl⟩
        next => cases h
      · rintro ⟨cell, cells, hcell, hrest, rfl⟩
        rw [hcell]
        exact map_eq_ok_iff.2 ⟨cells, ih.2 hrest, rfl⟩

/-- The only fault of fields is a first one that is no numeral. What comes after it does not count. -/
theorem cellsOfFields_eq_error_iff {e : DecodeError} :
    cellsOfFields index fields = .error e ↔
      ∃ before field after, fields = before ++ field :: after ∧
        (∀ read ∈ before, ∃ cell, Text.word32? read = some cell) ∧
        Text.word32? field = none ∧
        e = .badCell (index + before.length) (String.ofList field) := by
  induction fields generalizing index with
  | nil =>
      constructor
      · exact fun h => nomatch h
      · rintro ⟨before, field, after, h, _⟩
        exact absurd h.symm (List.append_ne_nil_of_right_ne_nil _ (List.cons_ne_nil _ _))
  | cons first fields ih =>
      rw [cellsOfFields]
      constructor
      · intro h
        split at h
        next cell hcell =>
          obtain ⟨before, field, after, rfl, hbefore, hfield, rfl⟩ := ih.1 (map_eq_error_iff.1 h)
          refine ⟨first :: before, field, after, rfl, ?_, hfield, ?_⟩
          · exact List.forall_mem_cons.2 ⟨⟨cell, hcell⟩, hbefore⟩
          · rw [List.length_cons, Nat.add_comm before.length, Nat.add_assoc]
        next hnone =>
          cases h
          exact ⟨[], first, fields, rfl, fun _ h => absurd h List.not_mem_nil, hnone, rfl⟩
      · rintro ⟨before, field, after, hfields, hbefore, hfield, he⟩
        cases before with
        | nil =>
            cases hfields
            rw [hfield, he]
            rfl
        | cons read before =>
            cases hfields
            obtain ⟨⟨cell, hcell⟩, hbefore⟩ := List.forall_mem_cons.1 hbefore
            rw [List.length_cons, Nat.add_comm before.length, ← Nat.add_assoc] at he
            rw [hcell]
            exact map_eq_error_iff.2 (ih.2 ⟨before, field, after, rfl, hbefore, hfield, he⟩)

theorem cellsOfFields_ne_sizeMismatch :
    cellsOfFields index fields ≠ .error (.sizeMismatch expected actual) := by
  intro h
  obtain ⟨_, _, _, _, _, _, hbad⟩ := cellsOfFields_eq_error_iff.1 h
  cases hbad

theorem error_of_unpack {compression : Compression} {n : Nat} {packed : List UInt8} {e : DecodeError}
    (h : unpack compression n packed = .error e) : e = .badCompression := by
  cases compression with
  | none => cases h
  | gzip | zlib =>
      simp only [unpack] at h
      split at h
      next => cases h
      next =>
        cases h
        rfl

section

variable {compression : Compression} {text : String} {packed : List UInt8} {e : DecodeError}

theorem cellsOfBase64_of_overflow (hlimit : byteLimit? count = none) :
    cellsOfBase64 compression count text = .error .overflow := by
  rw [cellsOfBase64, hlimit]
  rfl

theorem cellsOfBase64_of_invalid (hlimit : byteLimit? count = some limit)
    (hpacked : Base64.decode? (Text.trim text.toList) = none) :
    cellsOfBase64 compression count text = .error .badBase64 := by
  rw [cellsOfBase64, hlimit, hpacked]
  rfl

theorem cellsOfBase64_of_packed (hlimit : byteLimit? count = some limit)
    (hpacked : Base64.decode? (Text.trim text.toList) = some packed) :
    cellsOfBase64 compression count text =
      unpack compression limit.toNat packed >>= fun bytes =>
        if bytes.length % 4 = 0 then return wordsOfBytes bytes
        else throw (.sizeMismatch count.toNat (bytes.length / 4)) := by
  rw [cellsOfBase64, hlimit, hpacked]
  rfl

theorem cases_of_cellsOfBase64 (h : cellsOfBase64 compression count text = .error e) :
    (e = .overflow ∧ byteLimit? count = none) ∨ e = .badBase64 ∨ e = .badCompression ∨
      ∃ actual, e = .sizeMismatch count.toNat actual := by
  cases hlimit : byteLimit? count with
  | none =>
      rw [cellsOfBase64_of_overflow hlimit] at h
      cases h
      exact .inl ⟨rfl, rfl⟩
  | some limit =>
      refine .inr ?_
      cases hpacked : Base64.decode? (Text.trim text.toList) with
      | none =>
          rw [cellsOfBase64_of_invalid hlimit hpacked] at h
          cases h
          exact .inl rfl
      | some packed =>
          rw [cellsOfBase64_of_packed hlimit hpacked] at h
          rcases error_of_bind h with hunpack | ⟨bytes, _, h⟩
          · exact .inr (.inl (error_of_unpack hunpack))
          · split at h
            next => cases h
            next =>
              cases h
              exact .inr (.inr ⟨_, rfl⟩)

end

theorem unsupported_of_encoding {tag : Option String} {e : DecodeError}
    (h : Encoding.ofTag tag = .error e) : ∃ name, e = .unsupportedEncoding name := by
  rw [Encoding.ofTag.eq_def] at h
  split at h <;> cases h
  exact ⟨_, rfl⟩

theorem unsupported_of_compression {tag : Option String} {e : DecodeError}
    (h : Compression.ofTag tag = .error e) : ∃ name, e = .unsupportedCompression name := by
  rw [Compression.ofTag.eq_def] at h
  split at h <;> cases h
  exact ⟨_, rfl⟩

/-- A layer fails to decode by its tags, or by what its payload holds. -/
theorem cases_of_decode {e : DecodeError} (h : data.decode width height = .error e) :
    (∃ tag, e = .unsupportedEncoding tag) ∨ (∃ tag, e = .unsupportedCompression tag) ∨
      (∃ compression encoding, e = .compressedText compression encoding) ∨
      (∃ cells : List UInt32, e = .sizeMismatch (width.toNat * height.toNat) cells.length) ∨
      ∃ encoding compression, Encoding.ofTag data.encoding = .ok encoding ∧
        cellsOf encoding compression (cellCount width height) data.payload = .error e := by
  rw [decode_eq] at h
  rcases error_of_bind h with htag | ⟨encoding, hencoding, h⟩
  · exact .inl (unsupported_of_encoding htag)
  rcases error_of_bind h with htag | ⟨compression, _, h⟩
  · exact .inr (.inl (unsupported_of_compression htag))
  split at h
  next =>
    cases h
    exact .inr (.inr (.inl ⟨_, _, rfl⟩))
  next =>
    rcases bind_counted_eq_error_iff.1 h with hcells | ⟨cells, _, rfl, _⟩
    · exact .inr (.inr (.inr (.inr ⟨encoding, compression, hencoding, hcells⟩)))
    · exact .inr (.inr (.inr (.inl ⟨cells, rfl⟩)))

/-- The number of cells that are wanted is told as it is. -/
theorem expected_of_decode
    (h : data.decode width height = .error (.sizeMismatch expected actual)) :
    expected = width.toNat * height.toNat := by
  rcases cases_of_decode h with ⟨_, h⟩ | ⟨_, h⟩ | ⟨_, _, h⟩ | ⟨_, h⟩ |
    ⟨encoding, compression, _, hcells⟩
  · cases h
  · cases h
  · cases h
  · cases h
    rfl
  · cases hpayload : data.payload with
    | cells gids =>
        rw [hpayload, cellsOf] at hcells
        split at hcells <;> cases hcells
    | text text =>
        rw [hpayload] at hcells
        cases encoding with
        | inline => cases hcells
        | csv => exact absurd hcells cellsOfFields_ne_sizeMismatch
        | base64 =>
            rcases cases_of_cellsOfBase64 hcells with ⟨h, _⟩ | h | h | ⟨_, h⟩
            · cases h
            · cases h
            · cases h
            · cases h
              exact toNat_cellCount width height

theorem length_wordsOfBytes (bytes : List UInt8) :
    (wordsOfBytes bytes).length = bytes.length / 4 := by
  induction bytes using wordsOfBytes.induct with
  | case1 a b c d rest ih =>
      rw [wordsOfBytes, List.length_cons, ih]
      simp only [List.length_cons]
      omega
  | case2 bytes hshort =>
      have hlength : bytes.length < 4 := by
        rcases bytes with _ | ⟨a, _ | ⟨b, _ | ⟨c, _ | ⟨d, rest⟩⟩⟩⟩
        · decide
        · exact (by decide : 1 < 4)
        · exact (by decide : 2 < 4)
        · exact (by decide : 3 < 4)
        · exact absurd rfl (hshort a b c d rest)
      rw [Nat.div_eq_of_lt hlength, wordsOfBytes]
      · rfl
      · exact hshort

end TileKiln.TileData
