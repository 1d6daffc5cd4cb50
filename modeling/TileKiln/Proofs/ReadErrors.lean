import TileKiln.Proofs.Canonical

namespace TileKiln.Baked

variable {α : Type} {stream : List UInt8}

def countBefore (stream : List UInt8) (offset : Nat) : Nat :=
  (Word.value32 ((stream.drop (offset - 4)).take 4)).toNat

namespace ReadError

/-- What has to be so in a stream that `read` refuses with an error. -/
def Evident (read : List UInt8 → Except ReadError α) (stream : List UInt8) : ReadError → Prop
  | unexpectedEnd offset | tooDeep offset => offset ≤ stream.length
  | invalidTag kind tag offset => stream[offset]? = some tag ∧ kind.count ≤ tag.toNat
  | invalidUtf8 offset =>
    4 ≤ offset ∧ offset + countBefore stream offset ≤ stream.length ∧
      ¬ ((stream.drop offset).take (countBefore stream offset)).toByteArray.IsValidUTF8
  | trailingBytes count =>
    1 ≤ count ∧ count ≤ stream.length ∧ ∃ a, read (stream.take (stream.length - count)) = .ok a

theorem countBefore_of_count {front content back : List UInt8} (hfits : FitsWord content.length) :
    countBefore (front ++ Layout.count content.length ++ content ++ back)
      (front ++ Layout.count content.length).length = content.length := by
  have hcount : (Layout.count content.length).length = 4 := Word.length_bytes 4 _
  have hword : (front ++ Layout.count content.length ++ content ++ back).drop
      ((front ++ Layout.count content.length).length - 4) =
        Layout.count content.length ++ (content ++ back) := by
    simp only [List.length_append, hcount, Nat.add_sub_cancel, List.append_assoc, List.drop_left]
  have htaken : (Layout.count content.length ++ (content ++ back)).take 4 =
      Layout.count content.length := by
    rw [← hcount, List.take_left]
  rw [countBefore, hword, htaken, Layout.count, Word.value32_bytes32]
  exact UInt32.toNat_ofNat_of_lt' hfits

theorem not_isValidUTF8 {bytes : ByteArray} (h : String.fromUTF8? bytes = none) :
    ¬ bytes.IsValidUTF8 := by
  intro hvalid
  rw [String.fromUTF8?, dif_pos hvalid] at h
  cases h

/-- An error shows at the place where it has arisen. -/
theorem Shows.evident {e : ReadError} (h : e.Shows 0 stream)
    (read : List UInt8 → Except ReadError α) : e.Evident read stream := by
  cases h with
  | unexpectedEnd front back | tooDeep front back =>
      rw [Evident, Nat.zero_add, List.length_append]
      exact Nat.le_add_right _ _
  | invalidTag kind tag front back _ htag =>
      rw [Evident, Nat.zero_add]
      exact ⟨by simp, htag⟩
  | invalidUtf8 content front back _ hfits hcontent =>
      have hcount : (Layout.count content.length).length = 4 := Word.length_bytes 4 _
      rw [Evident, Nat.zero_add, countBefore_of_count hfits, List.append_assoc _ content,
        List.drop_left, List.take_left]
      refine ⟨?_, ?_, not_isValidUTF8 hcontent⟩
      · rw [List.length_append, hcount]
        omega
      · simp only [List.length_append]
        omega

end ReadError

theorem Reader.Exact.evident {read : Reader α} {told : α → List UInt8 → Prop} (h : read.Exact told)
    {e : ReadError} (hrun : read.run stream = .error e) : e.Evident read.run stream := by
  rw [Reader.run] at hrun
  split at hrun
  next e' hread =>
    cases hrun
    exact (h.refuses hread).1.evident read.run
  next a cursor hread =>
    obtain ⟨front, rfl, _, hgives⟩ := h.takes hread
    split at hrun
    next => cases hrun
    next hrest =>
      cases hrun
      -- What was taken is a whole stream by itself.
      have hfront : read.run front = .ok a := by
        have hgiven := hgives.run_eq [] 0
        rw [List.append_nil] at hgiven
        rw [Reader.run, hgiven]
        rfl
      have htaken : (front ++ cursor.rest).length - cursor.rest.length = front.length := by
        rw [List.length_append, Nat.add_sub_cancel]
      rw [ReadError.Evident, htaken, List.take_left, List.length_append]
      refine ⟨?_, Nat.le_add_left _ _, a, hfront⟩
      exact List.length_pos_iff.2 fun hnil => hrest (List.isEmpty_iff.2 hnil)

/-- Whatever is wrong with a stream, the error that refuses it can be checked in the stream. -/
theorem evident_of_read (stream : List UInt8) (e : ReadError) :
    (Map.read stream = .error e → e.Evident Map.read stream) ∧
      (Tileset.read stream = .error e → e.Evident Tileset.read stream) :=
  ⟨(Reader.map_exact maxNesting).evident, (Reader.tileset_exact maxNesting).evident⟩

/-- A paint order that is none, a tileset whose image is no text, and one with a byte too many. -/
theorem evident_of_read_sample :
    (Map.read [0, 0, 0, 7] = .error (.invalidTag .order 7 3) ∧
      ([0, 0, 0, 7] : List UInt8)[3]? = some 7 ∧ TagKind.order.count ≤ 7) ∧
    (Tileset.read [1, 0, 0, 0, 255] = .error (.invalidUtf8 4) ∧
      ¬ [(255 : UInt8)].toByteArray.IsValidUTF8) ∧
    Tileset.read (List.replicate 49 0) = .error (.trailingBytes 1) ∧
      ∃ t, Tileset.read (List.replicate 48 0) = .ok t := by
  have htag : Map.read [0, 0, 0, 7] = .error (.invalidTag .order 7 3) := rfl
  have htext : Tileset.read [1, 0, 0, 0, 255] = .error (.invalidUtf8 4) := rfl
  have htrailing : Tileset.read (List.replicate 49 0) = .error (.trailingBytes 1) := rfl
  have hlong := (evident_of_read _ _).2 htrailing
  exact ⟨⟨htag, (evident_of_read _ _).1 htag⟩, ⟨htext, ((evident_of_read _ _).2 htext).2.2⟩,
    htrailing, hlong.2.2⟩

end TileKiln.Baked
