import TileKiln.Baked.Reader
import TileKiln.Baked.Writer
import TileKiln.Proofs.Emission

namespace TileKiln.Baked

open TileKiln.Writer (Emits)

namespace Reader

variable {α β : Type} {read : Reader α} {next : α → Reader β} {shallow shallow' : Prop}
  {front back bytes : List UInt8} {a : α} {b : β}

/-- In front of any rest, the reader takes exactly `bytes` and returns `a`. Unless the record is
shallow, it may also find that the record nests too deep. -/
def Gives (read : Reader α) (shallow : Prop) (bytes : List UInt8) (a : α) : Prop :=
  ∀ (rest : List UInt8) (offset : Nat),
    read ⟨bytes ++ rest, offset⟩ = .ok (a, ⟨rest, offset + bytes.length⟩) ∨
      ¬ shallow ∧ ∃ place, read ⟨bytes ++ rest, offset⟩ = .error (.tooDeep place)

theorem run_bind (read : Reader α) (next : α → Reader β) (cursor : Cursor) :
    (read >>= next) cursor =
      match read cursor with
      | .ok (a, cursor) => next a cursor
      | .error e => .error e := by
  change (read cursor >>= fun p => next p.1 p.2) = _
  rcases read cursor with _ | ⟨_, _⟩ <;> rfl

theorem run_offset (cursor : Cursor) : offset cursor = .ok (cursor.offset, cursor) := rfl

theorem Gives.bind (h : read.Gives shallow front a) (hnext : (next a).Gives shallow back b) :
    (read >>= next).Gives shallow (front ++ back) b := by
  intro rest offset
  rw [run_bind, List.append_assoc, List.length_append, ← Nat.add_assoc]
  rcases h (back ++ rest) offset with hr | ⟨hs, place, hr⟩
  · rw [hr]
    exact hnext rest (offset + front.length)
  · rw [hr]
    exact .inr ⟨hs, place, rfl⟩

theorem gives_pure (a : α) : (pure a : Reader α).Gives shallow [] a :=
  fun _ _ => .inl rfl

theorem Gives.mono (h : read.Gives shallow bytes a) (hs : shallow' → shallow) :
    read.Gives shallow' bytes a := by
  intro rest offset
  exact (h rest offset).imp_right fun ⟨hn, hr⟩ => ⟨fun hs' => hn (hs hs'), hr⟩

theorem split?_append {γ : Type} (front back : List γ) :
    split? front.length (front ++ back) = some (front, back) := by
  induction front with
  | nil => rfl
  | cons c front ih => simp [split?, ih]

theorem run_byte (b : UInt8) (rest : List UInt8) (offset : Nat) :
    byte ⟨b :: rest, offset⟩ = .ok (b, ⟨rest, offset + 1⟩) := by
  have hb : UInt8.ofNat (Word.value [b]) = b := by simp [Word.value]
  change Except.ok (UInt8.ofNat (Word.value [b]), _) = _
  rw [hb]

theorem gives_take (bytes : List UInt8) : (take bytes.length).Gives shallow bytes bytes := by
  intro rest offset
  left
  simp only [take, split?_append]

end Reader

variable {α β : Type} {write next : Writer Unit} {read : Reader α} {a : α} {b : β}
  {fits fits' shallow shallow' : Prop}

/-- What `write` emits is read back as `a`. Writing succeeds on a record that fits, and reading what
was written succeeds on a record that is shallow. -/
def ReadsBack (write : Writer Unit) (read : Reader α) (a : α) (fits shallow : Prop) : Prop :=
  ∃ result bytes, Emits write result bytes ∧ (fits → result = .ok ()) ∧
    (result = .ok () → read.Gives shallow bytes a)

namespace ReadsBack

theorem mono (h : ReadsBack write read a fits shallow) (hf : fits' → fits)
    (hs : shallow' → shallow) : ReadsBack write read a fits' shallow' := by
  obtain ⟨result, bytes, hw, hok, hr⟩ := h
  exact ⟨result, bytes, hw, fun h => hok (hf h), fun h => (hr h).mono hs⟩

theorem of_ok {bytes : List UInt8} (hw : Emits write (.ok ()) bytes)
    (hr : read.Gives shallow bytes a) : ReadsBack write read a fits shallow :=
  ⟨.ok (), bytes, hw, fun _ => rfl, fun _ => hr⟩

theorem pure (a : α) : ReadsBack (Pure.pure ()) (Pure.pure a) a fits shallow :=
  of_ok Writer.emits_pure (Reader.gives_pure a)

/-- One record after another: what is read next may depend on what was read before. -/
theorem bind {nextRead : α → Reader β} (h : ReadsBack write read a fits shallow)
    (hnext : ReadsBack next (nextRead a) b fits shallow) :
    ReadsBack (write >>= fun _ => next) (read >>= nextRead) b fits shallow := by
  obtain ⟨result, front, hw, hok, hr⟩ := h
  obtain ⟨result', back, hw', hok', hr'⟩ := hnext
  rcases result with e | ⟨⟩
  -- A writer that fails has nothing to be read back, whatever comes next.
  · refine ⟨.error e, front, hw.bind_error next, hok, ?_⟩
    intro he
    cases he
  · refine ⟨result', front ++ back, hw.bind hw', hok', ?_⟩
    intro he
    exact (hr rfl).bind (hr' he)

/-- The last record of several, from which the reader puts its result together. -/
theorem map {f : α → β} (h : ReadsBack write read a fits shallow) :
    ReadsBack write (read >>= fun a => Pure.pure (f a)) (f a) fits shallow := by
  obtain ⟨result, bytes, hw, hok, hr⟩ := h
  refine ⟨result, bytes, hw, hok, ?_⟩
  intro he
  have hb : Reader.Gives (read >>= fun a => Pure.pure (f a)) shallow (bytes ++ []) (f a) :=
    (hr he).bind (Reader.gives_pure (f a))
  rwa [List.append_nil] at hb

theorem take (bytes : List UInt8) :
    ReadsBack (Writer.put bytes) (Reader.take bytes.length) bytes fits shallow :=
  of_ok (Writer.emits_put bytes) (Reader.gives_take bytes)

theorem word (w : UInt32) : ReadsBack (Writer.word w) Reader.word w fits shallow := by
  have h : ReadsBack (Writer.word w) (do return Word.value32 (← Reader.take (Word.bytes32 w).length))
      (Word.value32 (Word.bytes32 w)) fits shallow := (take (Word.bytes32 w)).map
  rwa [Word.value32_bytes32, Word.bytes32, Word.length_bytes] at h

theorem int (i : Int32) : ReadsBack (Writer.int i) Reader.int i fits shallow :=
  (word i.toUInt32).map

theorem single (x : Single) : ReadsBack (Writer.single x) Reader.single x fits shallow :=
  (word x.bits).map

theorem length {n : Nat} (h : fits → n < UInt32.size) :
    ReadsBack (Writer.length n) Reader.length n fits shallow := by
  by_cases hn : n < UInt32.size
  · rw [Writer.length, if_pos hn]
    have hw : ReadsBack (Writer.word (UInt32.ofNat n)) Reader.length (UInt32.ofNat n).toNat fits
        shallow := (word (UInt32.ofNat n)).map
    rwa [UInt32.toNat_ofNat_of_lt' hn] at hw
  · rw [Writer.length, if_neg hn]
    refine ⟨.error (.lengthOverflow n), [], Writer.emits_throw _, fun hf => absurd (h hf) hn, ?_⟩
    intro he
    cases he

theorem fromUTF8?_toUTF8 (s : String) :
    String.fromUTF8? s.toUTF8.data.toList.toByteArray = some s := by
  have hbytes : s.toUTF8.data.toList.toByteArray = s.toByteArray := by
    apply ByteArray.ext
    rw [List.data_toByteArray, String.toUTF8_eq_toByteArray]
  rw [hbytes, String.fromUTF8?, dif_pos s.isValidUTF8]
  rfl

theorem text {s : String} (h : fits → s.utf8ByteSize < UInt32.size) :
    ReadsBack (Writer.text s) Reader.text s fits shallow := by
  refine (length h).bind (of_ok (Writer.emits_put _) ?_)
  intro rest offset
  left
  have ht : Reader.take s.utf8ByteSize ⟨s.toUTF8.data.toList ++ rest, offset⟩ =
      .ok (s.toUTF8.data.toList, ⟨rest, offset + s.utf8ByteSize⟩) := by
    have hs := Reader.split?_append s.toUTF8.data.toList rest
    have hlength : s.toUTF8.data.toList.length = s.utf8ByteSize := rfl
    rw [hlength] at hs
    simp only [Reader.take, hs]
  rw [Reader.run_bind, Reader.run_offset]
  simp only [Reader.run_bind, ht, fromUTF8?_toUTF8]
  rfl

theorem tagged [DecidableEq α] [Tagged α] (a : α) :
    ReadsBack (Writer.tagged a) (Reader.tagged α) a fits shallow := by
  refine of_ok (Writer.emits_put _) ?_
  intro rest offset
  left
  rw [Reader.tagged, Reader.run_bind, Reader.run_offset]
  simp only [Reader.run_bind, List.singleton_append, Reader.run_byte, Tagged.ofTag?_tag]
  rfl

theorem each {writeOne : α → Writer Unit} {readOne : Reader β} {f : α → β} {as : List α}
    (h : ∀ a ∈ as, ReadsBack (writeOne a) readOne (f a) fits shallow) :
    ReadsBack (Writer.each writeOne as) (Reader.times readOne as.length) (as.map f) fits
      shallow := by
  induction as with
  | nil => exact pure []
  | cons a as ih =>
      have hfirst := h a List.mem_cons_self
      have hothers := ih fun a ha => h a (List.mem_cons_of_mem _ ha)
      exact hfirst.bind hothers.map

theorem table {writeOne : α → Writer Unit} {readOne : Reader β} {f : α → β} {as : List α}
    (hcount : fits → as.length < UInt32.size)
    (h : ∀ a ∈ as, ReadsBack (writeOne a) readOne (f a) fits shallow) :
    ReadsBack (Writer.table writeOne as) (Reader.table readOne) (as.map f) fits shallow :=
  (length hcount).bind (each h)

theorem eachSame {writeOne : α → Writer Unit} {readOne : Reader α} {as : List α}
    (h : ∀ a ∈ as, ReadsBack (writeOne a) readOne a fits shallow) :
    ReadsBack (Writer.each writeOne as) (Reader.times readOne as.length) as fits shallow := by
  have he := each (f := id) h
  rwa [List.map_id] at he

theorem tableSame {writeOne : α → Writer Unit} {readOne : Reader α} {as : List α}
    (hcount : fits → as.length < UInt32.size)
    (h : ∀ a ∈ as, ReadsBack (writeOne a) readOne a fits shallow) :
    ReadsBack (Writer.table writeOne as) (Reader.table readOne) as fits shallow :=
  (length hcount).bind (eachSame h)

theorem bytes_of_fits (h : ReadsBack write read a fits shallow) (hf : fits) :
    ∃ stream, Writer.bytes write = .ok stream := by
  obtain ⟨result, stream, hw, hok, _⟩ := h
  refine ⟨stream, ?_⟩
  rw [hw.bytes_eq, hok hf]
  rfl

/-- A whole stream that has been written is read back, unless it nests too deep. -/
theorem run (h : ReadsBack write read a fits shallow) {stream : List UInt8}
    (hstream : Writer.bytes write = .ok stream) :
    read.run stream = .ok a ∨ ¬ shallow ∧ ∃ place, read.run stream = .error (.tooDeep place) := by
  obtain ⟨result, bytes, hw, _, hr⟩ := h
  rw [hw.bytes_eq] at hstream
  rcases result with e | ⟨⟩
  · cases hstream
  · cases hstream
    have hread := hr rfl [] 0
    rw [List.append_nil] at hread
    rcases hread with hread | ⟨hs, place, hread⟩
    · exact .inl (by simp [Reader.run, hread])
    · exact .inr ⟨hs, place, by simp [Reader.run, hread]⟩

/-- Whatever is read from a stream that has been written is what was written. -/
theorem eq_of_run (h : ReadsBack write read a fits shallow) {stream : List UInt8} {b : α}
    (hstream : Writer.bytes write = .ok stream) (hread : read.run stream = .ok b) : b = a := by
  rcases h.run hstream with hrun | ⟨_, place, hrun⟩
  · rw [hrun] at hread
    cases hread
    rfl
  · rw [hrun] at hread
    cases hread

end ReadsBack

end TileKiln.Baked
